import ShellCompletion.Configuration.Text
import ShellCompletion.Proofs.Document.RoundTrip
import ShellCompletion.Proofs.Specification.Build

/-!
# Configurations are read back

The numbers of a configuration that is read from some text fit into a word, and neither the time for commands nor
the number of hops is zero (`inRange_of_ofText`). Every such configuration is read from what is written for it
(`ofText_of_text`): all fields are written, so that no standard value is asked for. But nothing is written for a
configuration whose directory is no UTF-8, as the standard directory may be (`not_text_of_standard`).
-/

namespace ShellCompletion.Configuration

open Document

/-- Every number fits into 64 bits, and there is some time for commands and a hop for requests. -/
structure InRange (configuration : Configuration) : Prop where
  timeout : 0 < configuration.settings.timeout ∧ configuration.settings.timeout < wordBound
  lifetime : configuration.settings.lifetime < wordBound
  hops : 0 < configuration.hops ∧ configuration.hops < wordBound

/-! ### What is read is in range -/

section Read

variable {world : World} {text : String} {document : List (String × Value)} {configuration result : Configuration}

theorem validate_ok :
    configuration.validate = .ok result ↔ configuration = result ∧ 0 < result.settings.timeout ∧ 0 < result.hops := by
  simp only [validate]
  split
  next noTime => exact iff_of_false nofun fun ⟨same, time, _⟩ => Nat.ne_of_gt time (same ▸ noTime)
  next time =>
    split
    next noHop => exact iff_of_false nofun fun ⟨same, _, hop⟩ => Nat.ne_of_gt hop (same ▸ noHop)
    next hop =>
      constructor
      · intro same
        obtain rfl := Except.ok.inj same
        exact ⟨rfl, Nat.pos_of_ne_zero time, Nat.pos_of_ne_zero hop⟩
      · rintro ⟨rfl, -, -⟩
        rfl

theorem ofText_ok :
    ofText world text = .ok configuration ↔
      ∃ document, read? text = some document ∧ ofDocument? (standard world) document = some configuration ∧
        0 < configuration.settings.timeout ∧ 0 < configuration.hops := by
  unfold ofText
  split
  next malformed =>
    refine iff_of_false nofun ?_
    rintro ⟨document, read, made, -, -⟩
    simp [read, made] at malformed
  next before formed =>
    obtain ⟨document, read, made⟩ := Option.bind_eq_some_iff.mp formed
    rw [mapError_ok, validate_ok]
    constructor
    · rintro ⟨rfl, range⟩
      exact ⟨document, read, made, range⟩
    · rintro ⟨other, again, remade, range⟩
      obtain rfl := Option.some.inj (read.symm.trans again)
      exact ⟨Option.some.inj (made.symm.trans remade), range⟩

theorem count?_lt {value : Value} {count : Nat} (read : value.count? = some count) : count < wordBound := by
  unfold Value.count? at read
  split at read
  next =>
    split at read
    next range =>
      obtain rfl := Option.some.inj read
      omega
    next => cases read
  next => cases read

theorem field_count_lt {fields : List (String × Value)} {name : String} {default count : Nat}
    (small : default < wordBound) (read : field fields name Value.count? default = some count) : count < wordBound := by
  unfold field at read
  split at read
  next => exact count?_lt read
  next =>
    obtain rfl := Option.some.inj read
    exact small

theorem lt_of_ofDocument? (read : ofDocument? (standard world) document = some configuration) :
    configuration.settings.timeout < wordBound ∧ configuration.settings.lifetime < wordBound ∧
      configuration.hops < wordBound := by
  unfold ofDocument? at read
  simp only [Option.bind_eq_bind, Option.bind_eq_some_iff] at read
  obtain ⟨logging, -, resolver, -, spec, -, level, -, timestamps, -, timeout, first, lifetime, second, hops, third,
    directory, -, read⟩ := read
  obtain rfl := Option.some.inj read
  have time : defaultTimeout < wordBound := by decide
  have nothing : 0 < wordBound := by decide
  have hop : defaultHops < wordBound := by decide
  exact ⟨field_count_lt time first, field_count_lt nothing second, field_count_lt hop third⟩

theorem inRange_of_ofText (read : ofText world text = .ok configuration) : configuration.InRange := by
  obtain ⟨document, -, made, timeout, hops⟩ := ofText_ok.mp read
  obtain ⟨first, second, third⟩ := lt_of_ofDocument? made
  exact ⟨⟨timeout, first⟩, second, ⟨hops, third⟩⟩

/-- A directory that is read is a text. -/
theorem directory_of_ofText (read : ofText world text = .ok configuration) :
    (∃ directory : String, configuration.directory = directory) ∨
      configuration.directory = (standard world).directory := by
  obtain ⟨document, -, made, -, -⟩ := ofText_ok.mp read
  unfold ofDocument? at made
  simp only [Option.bind_eq_bind, Option.bind_eq_some_iff] at made
  obtain ⟨logging, -, resolver, -, spec, -, level, -, timestamps, -, timeout, -, lifetime, -, hops, -, directory, found,
    made⟩ := made
  obtain rfl := Option.some.inj made
  unfold field at found
  split at found
  next value _ =>
    obtain ⟨name, -, same⟩ := Option.map_eq_some_iff.mp found
    exact .inl ⟨name, same.symm⟩
  next => exact .inr (Option.some.inj found).symm

end Read

/-! ### What is in range is read back -/

/-- The tables as which a configuration is written apart from its directory. -/
def limits (configuration : Configuration) : Tables := [
  ("logging", [
    ("level", .text configuration.level.name),
    ("timestamps", .boolean configuration.timestamps)]),
  ("resolver", [
    ("timeout_ms", .integer configuration.settings.timeout),
    ("cache_ttl_secs", .integer configuration.settings.lifetime),
    ("max_delegation_depth", .integer configuration.hops)])]

/-- All tables of a configuration, if a directory is set with that of the directory. -/
def tables (configuration : Configuration) (directory? : Option String) : Tables :=
  configuration.limits ++ directory?.toList.map fun directory => ("spec", [("directory", .text directory)])

variable {configuration : Configuration}

theorem count?_natural {count : Nat} (small : count < wordBound) : (Value.integer count).count? = some count := by
  rw [Value.count?, if_pos ⟨Int.natCast_nonneg count, Int.ofNat_lt.mpr small⟩, Int.toNat_natCast]

theorem writes_count {count : Nat} (small : count < wordBound) : Writes (toString count) (.integer count) :=
  writes_natural (Nat.lt_trans small (by decide))

theorem lines_limitsText (range : configuration.InRange) {statements : List Statement} {rest : List Char}
    (later : Lines statements rest) :
    Lines (configuration.limits.statements ++ statements) (configuration.limitsText.toList ++ rest) := by
  have newline : "\n".toList = ['\n'] := rfl
  simp only [Tables.statements, limits, limitsText, List.flatMap_cons, List.flatMap_nil, String.toList_append, newline,
    List.append_assoc, List.append_nil, List.singleton_append]
  refine Lines.writeTable_append (by decide) ?logging <| .blank <| Lines.writeTable_append (by decide) ?resolver later
  case logging => exact .cons (by decide) (writes_text _) (.cons (by decide) (writes_boolean _) .nil)
  case resolver =>
    exact .cons (by decide) (writes_count range.timeout.2) (.cons (by decide) (writes_count range.lifetime)
      (.cons (by decide) (writes_count range.hops.2) .nil))

theorem read?_limitsText (range : configuration.InRange) :
    read? configuration.limitsText = some (configuration.tables none).fields := by
  refine read?_of_lines ?_ (by simp [tables, limits, Table.names]) (by simp [tables, limits, Table.names])
  simpa [tables] using lines_limitsText range .nil

theorem text_ok_iff {written : String} :
    configuration.text = .ok written ↔
      ∃ directory : String, configuration.directory = directory ∧
        written = configuration.limitsText ++ "\n" ++ writeTable "spec" [("directory", writeText directory)] := by
  simp only [← OsText.text?_eq_some_iff]
  unfold text
  cases configuration.directory.text? <;> simp [eq_comm]

theorem text_error_iff {error : Error} :
    configuration.text = .error error ↔
      (∀ directory : String, configuration.directory ≠ directory) ∧
        error = .config (.generic "path contains invalid UTF-8 characters") := by
  simp only [ne_eq, ← OsText.text?_eq_some_iff, ← Option.eq_none_iff_forall_ne_some]
  unfold text
  cases configuration.directory.text? <;> simp [eq_comm]

theorem read?_text (range : configuration.InRange) {written : String} (writes : configuration.text = .ok written) :
    ∃ directory : String, configuration.directory = directory ∧
      read? written = some (configuration.tables (some directory)).fields := by
  obtain ⟨directory, named, rfl⟩ := text_ok_iff.mp writes
  refine ⟨directory, named, read?_of_lines ?_ (by simp [tables, limits, Table.names])
    (by simp [tables, limits, Table.names])⟩
  have key : IsKey "spec" := by decide
  have spec : Lines (Tables.statements [("spec", [("directory", .text directory)])])
      (writeTable "spec" [("directory", writeText directory)]).toList := by
    rw [← List.append_nil (writeTable "spec" _).toList]
    exact Lines.writeTable_append key (.cons (by decide) (writes_text _) .nil) .nil
  simpa [tables, Tables.statements, String.toList_append] using lines_limitsText range (.blank spec)

/-- Every field is found in the tables, but for the directory if none is set. -/
theorem ofDocument?_tables (range : configuration.InRange) {standard : Configuration} {directory? : Option String}
    (same : configuration.directory = (directory?.map OsText.ofText).getD standard.directory) :
    ofDocument? standard (configuration.tables directory?).fields = some configuration := by
  have timeout := count?_natural range.timeout.2
  have lifetime := count?_natural range.lifetime
  have hops := count?_natural range.hops.2
  have level := LogLevel.ofName?_name configuration.level
  cases directory?
  all_goals
    simp only [Option.map_none, Option.map_some, Option.getD_none, Option.getD_some] at same
    simp [ofDocument?, fieldsOf?, field, Tables.fields, Table.lookup_ofList, List.lookup_cons, tables, limits,
      Value.fields?, Value.variant?, Value.boolean?, Value.text?, timeout, lifetime, hops, level, ← same]

theorem ofText_of_text (range : configuration.InRange) {written : String} (writes : configuration.text = .ok written)
    (world : World) : ofText world written = .ok configuration := by
  obtain ⟨directory, named, read⟩ := read?_text range writes
  exact ofText_ok.mpr ⟨_, read, ofDocument?_tables range named, range.timeout.1, range.hops.1⟩

theorem ofText_limitsText (range : configuration.InRange) {world : World}
    (same : configuration.directory = (standard world).directory) :
    ofText world configuration.limitsText = .ok configuration :=
  ofText_ok.mpr ⟨_, read?_limitsText range, ofDocument?_tables range same, range.timeout.1, range.hops.1⟩

theorem exists_text_iff {world : World} :
    (∃ text, ofText world text = .ok configuration) ↔ configuration.InRange ∧
      ((∃ directory : String, configuration.directory = directory) ∨
        configuration.directory = (standard world).directory) := by
  constructor
  · rintro ⟨text, read⟩
    exact ⟨inRange_of_ofText read, directory_of_ofText read⟩
  · rintro ⟨range, ⟨directory, named⟩ | same⟩
    · exact ⟨_, ofText_of_text range (text_ok_iff.mpr ⟨directory, named, rfl⟩) world⟩
    · exact ⟨_, ofText_limitsText range same⟩

/-- A configuration is set by some text exactly if its numbers are in range and its directory is a text, or else the
standard one. If the directory is a text, something is written for the configuration, and it is read again from that,
also where the standard values are others. If it is not, as only a standard directory can be, nothing is written. -/
theorem ofText_text (world : World) (configuration : Configuration) :
    ((∃ text, ofText world text = .ok configuration) ↔ configuration.InRange ∧
      ((∃ directory : String, configuration.directory = directory) ∨
        configuration.directory = (standard world).directory)) ∧
    ((∃ written, configuration.text = .ok written) ↔ ∃ directory : String, configuration.directory = directory) ∧
    (∀ error, configuration.text = .error error ↔
      (∀ directory : String, configuration.directory ≠ directory) ∧
        error = .config (.generic "path contains invalid UTF-8 characters")) ∧
    ∀ text written, ofText world text = .ok configuration → configuration.text = .ok written →
      ∀ other : World, ofText other written = .ok configuration := by
  refine ⟨exists_text_iff, ⟨?_, ?_⟩, fun error => text_error_iff, fun text written read writes other => ?_⟩
  · rintro ⟨written, writes⟩
    obtain ⟨directory, named, -⟩ := text_ok_iff.mp writes
    exact ⟨directory, named⟩
  · rintro ⟨directory, named⟩
    exact ⟨_, text_ok_iff.mpr ⟨directory, named, rfl⟩⟩
  · exact ofText_of_text (inRange_of_ofText read) writes other

/-- The directory needs an escape on its second line, and the time does not fit into a signed word. -/
theorem ofText_text_escape :
    let text := "[resolver]\ntimeout_ms = 0x8000000000000000\n[spec]\ndirectory = \"\\\"'\\n\\u0001\"\n"
    let written := "[logging]\nlevel = \"warn\"\ntimestamps = false\n\n" ++
      "[resolver]\ntimeout_ms = 9223372036854775808\ncache_ttl_secs = 0\nmax_delegation_depth = 8\n\n" ++
      "[spec]\ndirectory = \"\"\"\n\"'\n\\u0001\"\"\"\n"
    let configuration : Configuration :=
      { settings := { timeout := 9223372036854775808 }, directory := "\"'\n\x01" }
    ofText {} text = .ok configuration ∧ configuration.text = .ok written ∧ ofText {} written = .ok configuration := by
  intro text written configuration
  let parts : Tables :=
    [("resolver", [("timeout_ms", .integer 9223372036854775808)]), ("spec", [("directory", .text "\"'\n\x01")])]
  have timeout : Writes "0x8000000000000000" (.integer 9223372036854775808) :=
    writes_scalar (by decide) (by decide) rfl
  have directory : Writes "\"\\\"'\\n\\u0001\"" (.text "\"'\n\x01") := by
    refine writes_quoted (.inl rfl) fun rest => ?_
    rfl
  have tabular : text = writeTable "resolver" [("timeout_ms", "0x8000000000000000")] ++
      writeTable "spec" [("directory", "\"\\\"'\\n\\u0001\"")] := by
    decide +kernel
  have lines : Lines parts.statements text.toList := by
    rw [tabular, String.toList_append, ← List.append_nil (writeTable "spec" _).toList]
    exact Lines.writeTable_append (by decide) (.cons (by decide) timeout .nil)
      (Lines.writeTable_append (by decide) (.cons (by decide) directory .nil) .nil)
  have read : ofText {} text = .ok configuration :=
    ofText_ok.mpr ⟨_, read?_of_lines lines (by decide) (by decide), rfl, by decide, by decide⟩
  have writes : configuration.text = .ok written := text_ok_iff.mpr ⟨_, rfl, by decide +kernel⟩
  exact ⟨read, writes, (ofText_text {} configuration).2.2.2 text written read writes {}⟩

/-- The empty text leaves the standard directory, which lies below a directory that is no UTF-8. -/
theorem not_text_of_standard :
    let place : OsText := ⟨(OsText.ofText "/tmp/").octets ++ [0xFF]⟩
    let world : World := { environment := [("XDG_CONFIG_HOME", place)] }
    ∃ configuration, ofText world "" = .ok configuration ∧
      configuration.text = .error (.config (.generic "path contains invalid UTF-8 characters")) ∧
      ∀ written, configuration.text ≠ .ok written := by
  intro place world
  have empty : read? "" = some [] := by cbv
  have read : ofText world "" = .ok (standard world) :=
    ofText_ok.mpr ⟨[], empty, rfl, by decide, by decide⟩
  have unreadable : (standard world).directory.text? = none := by decide +kernel
  have fails : (standard world).text = .error (.config (.generic "path contains invalid UTF-8 characters")) := by
    rw [text, unreadable]
  refine ⟨standard world, read, fails, fun written writes => ?_⟩
  rw [fails] at writes
  cases writes

end ShellCompletion.Configuration
