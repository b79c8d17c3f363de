import ShellCompletion.Kernel.Machine

/-!
# Calls to the system

`serve` answers the call of a process. A call that cannot be answered yet is made again later; one may
also bring a signal to the process that makes it.
-/

namespace ShellCompletion.Kernel

open Text (Octets)

inductive Outcome (α : Type) where
  /-- The reply, what becomes of the machine, and the time that was spent. -/
  | reply (value : α) (machine : Machine) (cost : Nat)
  | later (waiting : Waiting)
  | signal (signal : Signal)

namespace Machine

/-- What a call costs, in microseconds. -/
def callCost : Nat := 1

def refuse {α : Type} (machine : Machine) (errno : Errno) : Outcome (Except Errno α) :=
  .reply (.error errno) machine callCost

def accept {α : Type} (machine : Machine) (value : α) : Outcome (Except Errno α) :=
  .reply (.ok value) machine callCost

/-- The reply to a call that changes nothing. -/
def answer {α : Type} (machine : Machine) (reply : Except Errno α) : Outcome (Except Errno α) :=
  .reply reply machine callCost

/-! ### Descriptors -/

def addDescriptor (machine : Machine) (process : Process) (number file : Nat) (hidden : Bool := false) :
    Machine :=
  machine.modify process.number fun process =>
    let process := process.withoutDescriptor number
    { process with descriptors := process.descriptors ++ [{ number, file, hidden }] }

/-- Opens a stream under the first free descriptor. -/
def addFile (machine : Machine) (process : Process) (file : OpenFile) : Outcome (Except Errno Nat) :=
  let number := process.vacant 0
  if Process.descriptorBound ≤ number then machine.refuse .tooManyFiles
  else
    let id := machine.nextFile
    let machine := { machine with files := (id, file) :: machine.files, nextFile := id + 1 }
    (machine.addDescriptor process number id).accept number

def close (machine : Machine) (process : Process) (number : Nat) : Outcome (Except Errno Unit) :=
  match process.descriptor? number with
  | none => machine.refuse .badDescriptor
  | some descriptor =>
    let machine := machine.modify process.number (·.withoutDescriptor number)
    (machine.release descriptor.file process.clock).accept ()

def duplicate (machine : Machine) (process : Process) (number least : Nat) (hidden : Bool) :
    Outcome (Except Errno Nat) :=
  match process.descriptor? number with
  | none => machine.refuse .badDescriptor
  | some descriptor =>
    let copy := process.vacant least
    if Process.descriptorBound ≤ copy then machine.refuse .tooManyFiles
    else (machine.addDescriptor process copy descriptor.file hidden).accept copy

def duplicateTo (machine : Machine) (process : Process) (number target : Nat) :
    Outcome (Except Errno Unit) :=
  match process.descriptor? number with
  | none => machine.refuse .badDescriptor
  | some descriptor =>
    if number = target then machine.accept ()
    else
      let before := process.descriptor? target
      let machine := machine.addDescriptor process target descriptor.file
      (machine.releaseAll before.toList process.clock).accept ()

/-- The descriptors for reading from a new pipe and for writing to it. -/
def addPipe (machine : Machine) (process : Process) : Outcome (Nat × Nat) :=
  let id := machine.nextPipe
  let file := machine.nextFile
  let source := process.vacant 0
  let sink := process.vacant (source + 1)
  let machine := { machine with
    pipes := (id, {}) :: machine.pipes
    nextPipe := id + 1
    files := (file, { stream := .source id, reads := true }) ::
      (file + 1, { stream := .sink id, writes := true }) :: machine.files
    nextFile := file + 2 }
  let machine := (machine.addDescriptor process source file).addDescriptor process sink (file + 1)
  .reply (source, sink) machine callCost

/-! ### Reading and writing -/

def content (machine : Machine) (place : Place) : ByteArray :=
  match machine.tree.node? place with
  | some (.file content _) => content
  | _ => ByteArray.empty

/-- A call that would have to wait ends when a signal was caught. -/
def waitFor {α : Type} (machine : Machine) (process : Process) (waiting : Waiting) :
    Outcome (Except Errno α) :=
  if process.pending.isEmpty then .later waiting else machine.refuse .interrupted

def read (machine : Machine) (process : Process) (number count : Nat) :
    Outcome (Except Errno Octets) :=
  match machine.openFile? process number with
  | none => machine.refuse .badDescriptor
  | some (id, file) =>
    if !file.reads then machine.refuse .badDescriptor
    else
      match file.stream with
      | .directory _ => machine.refuse .isDirectory
      | .file place =>
        let content := machine.content place
        let data := Text.ofBytes (content.extract file.position (file.position + count))
        (machine.setFile id { file with position := file.position + data.length }).accept data
      | .device .zero | .device .full => machine.accept (List.replicate count '\x00')
      | .device _ => machine.accept []
      | .source pipe =>
        match machine.pipes.lookup pipe with
        | none => machine.accept []
        | some state =>
          if 0 < state.size then
            let (data, state) := state.pop count
            ((machine.setPipe pipe state).wakeAt pipe process.clock).accept data
          else if machine.isOpen (.sink pipe) then machine.waitFor process (.pipe pipe)
          else machine.accept []
      | .sink _ | .output => machine.refuse .badDescriptor

/-- Puts octets into a file from a position on; what is skipped is filled with octets of value zero. -/
def overwrite (content : ByteArray) (position : Nat) (data : ByteArray) : ByteArray :=
  let content := content ++ ⟨(List.replicate (position - content.size) 0).toArray⟩
  content.extract 0 position ++ data ++ content.extract (position + data.size) content.size

def write (machine : Machine) (process : Process) (number : Nat) (data : Octets) :
    Outcome (Except Errno Unit) :=
  match machine.openFile? process number with
  | none => machine.refuse .badDescriptor
  | some (id, file) =>
    if !file.writes then machine.refuse .badDescriptor
    else
      match file.stream with
      | .output => { machine with output := data.reverseAux machine.output }.accept ()
      | .device .full => machine.refuse .noSpace
      | .device _ => machine.accept ()
      | .file place =>
        match machine.tree.node? place with
        | some (.file content executable) =>
          let position := if file.appends then content.size else file.position
          let changed := overwrite content position (Text.toBytes data)
          let machine := machine.setFile id { file with position := position + data.length }
          { machine with
            tree := machine.tree.put place (.file changed executable)
            changes := (place, process.clock + 1) :: machine.changes.filter (·.1 != place) }.accept ()
        | _ => machine.accept ()
      | .sink pipe =>
        match machine.pipes.lookup pipe with
        | none => machine.refuse .brokenPipe
        | some state =>
          if !machine.isOpen (.source pipe) then
            if process.ignored.contains Signal.brokenPipe || process.caught.contains Signal.brokenPipe then
              machine.refuse .brokenPipe
            else .signal Signal.brokenPipe
          else if state.size < Pipe.capacity then
            ((machine.setPipe pipe (state.push data)).wakeAt pipe process.clock).accept ()
          else machine.waitFor process (.pipe pipe)
      | .source _ | .directory _ => machine.refuse .badDescriptor

/-! ### Files -/

def pathOf (path : Octets) : String := Text.decode path

def openAt (machine : Machine) (process : Process) (place : Place) (mode : OpenMode) :
    Outcome (Except Errno Nat) :=
  let file (stream : Stream) : OpenFile :=
    { stream, reads := mode.reads, writes := mode.writes, appends := mode.appends }
  match machine.tree.node? place with
  | none | some (.link _) => machine.refuse .noEntry
  | some .directory =>
    if mode.writes || mode.creates then machine.refuse .isDirectory
    else machine.addFile process (file (.directory place))
  | some (.file _ executable) =>
    if mode.creates && mode.exclusive then machine.refuse .fileExists
    else
      let machine :=
        if mode.truncates then
          { machine with
            tree := machine.tree.put place (.file ByteArray.empty executable)
            changes := (place, process.clock + 1) :: machine.changes.filter (·.1 != place) }
        else machine
      machine.addFile process (file (.file place))
  | some (.program _) =>
    if mode.writes then machine.refuse .textBusy else machine.addFile process (file (.file place))
  | some (.device .terminal) => machine.refuse .noDevice
  | some (.device (.descriptor number)) =>
    match machine.openFile? process number with
    | none => machine.refuse .noEntry
    | some (_, known) =>
      match known.stream with
      | .source pipe | .sink pipe =>
        machine.addFile process (file (if mode.writes then .sink pipe else .source pipe))
      | .output => machine.addFile process (file .output)
      | .directory place =>
        if mode.writes || mode.creates then machine.refuse .isDirectory
        else machine.addFile process (file (.directory place))
      | .file place =>
        let machine :=
          match machine.tree.node? place with
          | some (.file _ executable) =>
            if mode.truncates then
              { machine with tree := machine.tree.put place (.file ByteArray.empty executable) }
            else machine
          | _ => machine
        machine.addFile process (file (.file place))
      | .device device => machine.addFile process (file (.device device))
  | some (.device device) => machine.addFile process (file (.device device))

def openFile (machine : Machine) (process : Process) (path : Octets) (mode : OpenMode) :
    Outcome (Except Errno Nat) :=
  let path := pathOf path
  match machine.tree.locate process.directory path with
  | .ok place => machine.openAt process place mode
  | .error .missing =>
    if mode.creates then
      match machine.tree.vacancy FileTree.maxLinks process.directory path with
      | .ok place =>
        if mode.exclusive && (machine.tree.node? place).isSome then machine.refuse .fileExists
        else
          let machine := { machine with
            tree := machine.tree.put place (.file ByteArray.empty false)
            changes := (place, process.clock + 1) :: machine.changes }
          machine.openAt process place { mode with exclusive := false }
      | .error error => machine.refuse (.ofPath error)
    else machine.refuse .noEntry
  | .error error => machine.refuse (.ofPath error)

def streamStatus (machine : Machine) (stream : Stream) : FileStatus :=
  match stream with
  | .file place =>
    let modified := (machine.changes.lookup place).getD 0
    match machine.tree.node? place with
    | some (.file content executable) =>
      { kind := .regular, identity := .place place, size := content.size, executable, modified }
    | some (.program _) =>
      { kind := .regular, identity := .place place, size := 1, executable := true, modified }
    | _ => { kind := .regular, identity := .place place, modified }
  | .directory place =>
    { kind := .directory, identity := .place place, size := 4096, executable := true
      modified := (machine.changes.lookup place).getD 0 }
  | .device device =>
    let name := match device with
      | .null => "null"
      | .zero => "zero"
      | .full => "full"
      | .terminal => "tty"
      | .descriptor number => toString number
    { kind := .character, identity := .place ["dev", name] }
  | .source pipe | .sink pipe => { kind := .pipe, identity := .pipe pipe }
  | .output => { kind := .pipe, identity := .place [] }

def descriptorStatus (machine : Machine) (process : Process) (number : Nat) :
    Except Errno FileStatus :=
  match machine.openFile? process number with
  | none => .error .badDescriptor
  | some (_, file) => .ok (machine.streamStatus file.stream)

/-- The place of a path whose last link, if it is one, is not followed. -/
def linkPlace? (machine : Machine) (process : Process) (path : String) : Option Place :=
  let (directory, name) := Text.cutLast '/' path.toList
  if name.isEmpty || name = ['.'] || name = ['.', '.'] then none
  else
    let directory := if directory.isEmpty then "." else String.ofList directory
    match machine.tree.locate process.directory directory with
    | .ok place => some (place ++ [String.ofList name])
    | .error _ => none

def status (machine : Machine) (process : Process) (path : Octets) (follows : Bool) :
    Except Errno FileStatus :=
  let path := pathOf path
  let found : Except Errno FileStatus :=
    match machine.tree.locate process.directory path with
    | .error error => .error (.ofPath error)
    | .ok place =>
      match machine.tree.node? place with
      | none | some (.link _) => .error .noEntry
      | some .directory => .ok (machine.streamStatus (.directory place))
      | some (.file _ _) | some (.program _) => .ok (machine.streamStatus (.file place))
      | some (.device (.descriptor number)) =>
        match machine.descriptorStatus process number with
        | .ok status => .ok status
        | .error _ => .error .noEntry
      | some (.device device) => .ok (machine.streamStatus (.device device))
  if follows then found
  else
    match (machine.linkPlace? process path).bind fun place =>
        (machine.tree.node? place).map (place, ·) with
    | some (place, .link target) =>
      .ok { kind := .link, identity := .place place, size := target.utf8ByteSize, executable := true }
    | _ => found

def list (machine : Machine) (process : Process) (path : Octets) : List Octets :=
  match machine.tree.locate process.directory (pathOf path) with
  | .ok place =>
    if (machine.tree.node? place).any FileNode.isDirectory then
      (machine.tree.entries place).map Text.encode
    else []
  | .error _ => []

def enter (machine : Machine) (process : Process) (path : Octets) : Outcome (Except Errno Unit) :=
  match machine.tree.locate process.directory (pathOf path) with
  | .error error => machine.refuse (.ofPath error)
  | .ok place =>
    if (machine.tree.node? place).any FileNode.isDirectory then
      (machine.modify process.number ({ · with directory := place })).accept ()
    else machine.refuse .notDirectory

def placeText (place : Place) : Octets :=
  if place.isEmpty then ['/'] else Text.encode (String.join (place.map ("/" ++ ·)))

/-! ### Processes and signals -/

/-- The end of a child of the process that nobody has asked for. -/
def await (machine : Machine) (process : Process) (patience : Patience) :
    Outcome (Except Errno (Option (Nat × Ending))) :=
  match machine.ended.find? fun (_, parent, _) => parent == process.number with
  | some (number, _, ending) =>
    { machine with ended := machine.ended.filter (·.1 != number) }.accept (some (number, ending))
  | none =>
    if machine.processes.all (·.parent != process.number) then machine.refuse .noChild
    else
      match patience with
      | .none => machine.accept none
      | .untilSignal => machine.waitFor process .child
      | .endless => .later .child

/-- Brings a signal to the processes that a number stands for: zero and minus one stand for all, and there
are no other groups. -/
def signal (machine : Machine) (process : Process) (target : Int) (signal : Signal) :
    Outcome (Except Errno Unit) :=
  let targets := machine.processes.filter fun other =>
    target == 0 || target == -1 || (other.number : Int) == target
  if Signal.bound ≤ signal then machine.refuse .invalid
  else if targets.isEmpty && machine.ended.all fun entry => (entry.1 : Int) != target then
    machine.refuse .noProcess
  else if signal = 0 then machine.accept ()
  else
    let (own, others) := targets.partition (·.number == process.number)
    let machine := others.foldl (fun machine other => machine.deliver signal process.clock other) machine
    match own with
    | [] => machine.accept ()
    | _ =>
      if process.ignored.contains signal then machine.accept ()
      else if process.caught.contains signal then
        (machine.deliver signal process.clock process).accept ()
      else
        match Signal.effect signal with
        | .ends => .signal signal
        | .stops => (machine.deliver signal process.clock process).accept ()
        | .resumes | .none => machine.accept ()

def handle (machine : Machine) (process : Process) (signal : Signal) (handling : Handling) :
    Outcome Unit :=
  let machine := machine.modify process.number fun process =>
    let ignored := process.ignored.filter (· != signal)
    let caught := process.caught.filter (· != signal)
    match handling with
    | .standard => { process with ignored, caught }
    | .ignored => { process with ignored := ignored ++ [signal], caught }
    | .caught => { process with ignored, caught := caught ++ [signal] }
  .reply () machine callCost

/-- Tells a process of the signals that it has caught. -/
def tick (machine : Machine) (process : Process) : Outcome (List Signal) :=
  if process.pending.isEmpty then .reply [] machine callCost
  else
    .reply process.pending (machine.modify process.number ({ · with pending := [] })) callCost

def serve (machine : Machine) (process : Process) : (call : Call) → Outcome call.Reply
  | .tick => machine.tick process
  | .sleep microseconds => .reply () machine microseconds
  | .read descriptor count => machine.read process descriptor count
  | .write descriptor data => machine.write process descriptor data
  | .openFile path mode => machine.openFile process path mode
  | .close descriptor => machine.close process descriptor
  | .duplicate descriptor least hidden => machine.duplicate process descriptor least hidden
  | .duplicateTo source target => machine.duplicateTo process source target
  | .pipe => machine.addPipe process
  | .status path follows => machine.answer (machine.status process path follows)
  | .descriptorStatus descriptor => machine.answer (machine.descriptorStatus process descriptor)
  | .list path => .reply (machine.list process path) machine callCost
  | .enter path => machine.enter process path
  | .directory => .reply (placeText process.directory) machine callCost
  | .await patience => machine.await process patience
  | .signal target signal => machine.signal process target signal
  | .handle signal handling => machine.handle process signal handling
  | .numbers => .reply (process.number, process.parent) machine callCost
  | .ignored => .reply process.ignored machine callCost
  | .mask new =>
    .reply process.mask
      (machine.modify process.number fun process => { process with mask := new.getD process.mask })
      callCost

end Machine

end ShellCompletion.Kernel
