import Mathlib.Data.List.Induction
import ShellCompletion.Proofs.Grammar.Compile
import ShellCompletion.Table

/-!
# The tables of a compiled grammar

Which flag has a spelling and which flags are in a group are views of the list of flags. A compiler may
also keep tables of both: it binds the spellings of each declaration as it comes (`Ledger.declare`), and
enters the flags into their groups one by one at the end (`enterGroup`). The tables then hold what the
views say (`Ledger.Keeps.addTokens`, `lookup_groupTable`), and all of it fits together (`compile_consistent`).
-/

namespace ShellCompletion

/-! ### Groups -/

theorem Flag.group_eq_some_iff {flag : Flag} {id : String} :
    flag.group = some id ↔ flag.explicitGroup = some id ∨
      flag.explicitGroup = none ∧ flag.repeatable = false ∧ flag.canonical = id := by
  unfold Flag.group
  cases flag.explicitGroup <;> simp

theorem Flag.group_eq_none_iff {flag : Flag} :
    flag.group = none ↔ flag.repeatable = true ∧ flag.explicitGroup = none := by
  unfold Flag.group
  cases flag.explicitGroup <;> simp

namespace Grammar

variable {grammar : Grammar} {id : String}

theorem mem_groupIds : id ∈ grammar.groupIds ↔ ∃ flag ∈ grammar.flags, flag.group = some id := by
  rw [groupIds, Names.mem_ofList, List.mem_filterMap]

theorem mem_members {spelling : String} :
    spelling ∈ grammar.members id ↔
      ∃ flag ∈ grammar.flags, flag.group = some id ∧ spelling ∈ flag.spellings := by
  simp [members, and_assoc]

theorem group?_eq_some_iff {group : Group} :
    grammar.group? id = some group ↔ (∃ flag ∈ grammar.flags, flag.group = some id) ∧
      group = ⟨id, grammar.members id, !grammar.flags.any (·.explicitGroup == some id)⟩ := by
  unfold group?
  rw [← mem_groupIds]
  split
  next known => simp [known, eq_comm]
  next unknown => simp [unknown]

theorem group?_eq_none_iff :
    grammar.group? id = none ↔ ∀ flag ∈ grammar.flags, flag.group ≠ some id := by
  unfold group?
  rw [ite_eq_right_iff]
  simp [mem_groupIds]

/-- A group is implicit if its flags are in it by nothing but their spelling. -/
theorem implicit_iff : (!grammar.flags.any (·.explicitGroup == some id)) = true ↔
    ∀ flag ∈ grammar.flags, flag.group = some id → flag.explicitGroup = none := by
  rw [Bool.not_eq_true', List.any_eq_false]
  constructor
  · intro unmarked flag member grouped
    rcases Flag.group_eq_some_iff.mp grouped with marked | ⟨plain, -, -⟩
    · exact absurd (beq_iff_eq.mpr marked) (unmarked flag member)
    · exact plain
  · intro plain flag member marked
    have given : flag.explicitGroup = some id := beq_iff_eq.mp marked
    rw [plain flag member (Flag.group_eq_some_iff.mpr (.inl given))] at given
    cases given

theorem groupOf?_of_mem (apart : grammar.flags.Pairwise Flag.Apart) {flag : Flag} {spelling : String}
    (member : flag ∈ grammar.flags) (mine : spelling ∈ flag.spellings) (marked : flag.group = some id) :
    grammar.groupOf? spelling =
      some ⟨id, grammar.members id, !grammar.flags.any (·.explicitGroup == some id)⟩ := by
  have finds : grammar.flag? spelling = some flag := (flag?_eq_some_iff apart).mpr ⟨member, mine⟩
  rw [groupOf?, finds, Option.bind_some, marked, Option.bind_some]
  exact group?_eq_some_iff.mpr ⟨⟨flag, member, marked⟩, rfl⟩

theorem mem_groups {group : Group} : group ∈ grammar.groups ↔ grammar.group? group.id = some group := by
  rw [groups, List.mem_filterMap]
  constructor
  · rintro ⟨id, -, found⟩
    obtain ⟨-, rfl⟩ := group?_eq_some_iff.mp found
    exact found
  · intro found
    exact ⟨group.id, mem_groupIds.mpr (group?_eq_some_iff.mp found).1, found⟩

end Grammar

/-- Enters a flag into its group, which is implicit as long as no flag has it by an explicit mark. -/
def enterGroup (groups : Table Group) (flag : Flag) : Table Group :=
  match flag.group with
  | none => groups
  | some id =>
    let group := (groups.lookup id).getD { id, members := [], implicit := true }
    groups.insert id { group with
      members := Names.ofList (group.members ++ flag.spellings)
      implicit := group.implicit && flag.explicitGroup.isNone }

def groupTable (flags : List Flag) : Table Group := flags.foldl enterGroup []

section GroupTable

variable (flags : List Flag) (flag : Flag) (id : String)

theorem lookup_enterGroup (groups : Table Group) :
    (enterGroup groups flag).lookup id =
      if flag.group = some id then
        let group := (groups.lookup id).getD ⟨id, [], true⟩
        some { group with
          members := Names.ofList (group.members ++ flag.spellings)
          implicit := group.implicit && flag.explicitGroup.isNone }
      else groups.lookup id := by
  unfold enterGroup
  cases grouped : flag.group with
  | none => simp
  | some other =>
    by_cases same : other = id
    · subst same
      simp
    · simp [same, Table.lookup_insert_other (Ne.symm same)]

theorem members_concat :
    Grammar.members { flags := flags ++ [flag] } id =
      if flag.group = some id then
        Names.ofList (Grammar.members { flags } id ++ flag.spellings)
      else Grammar.members { flags } id := by
  split
  next grouped =>
    refine Names.ofList_eq_iff.mpr fun spelling => ?_
    simp [grouped, Grammar.mem_members, and_assoc]
  next other => simp [Grammar.members, other]

theorem group?_concat :
    Grammar.group? { flags := flags ++ [flag] } id =
      if flag.group = some id then
        let group := (Grammar.group? { flags } id).getD ⟨id, [], true⟩
        some { group with
          members := Names.ofList (group.members ++ flag.spellings)
          implicit := group.implicit && flag.explicitGroup.isNone }
      else Grammar.group? { flags } id := by
  by_cases grouped : flag.group = some id
  · have mark : flag.explicitGroup.isNone = !(flag.explicitGroup == some id) := by
      rcases Flag.group_eq_some_iff.mp grouped with marked | ⟨plain, -, -⟩
      · simp [marked]
      · simp [plain]
    have here : Grammar.group? { flags := flags ++ [flag] } id =
        some ⟨id, Names.ofList (Grammar.members { flags } id ++ flag.spellings),
          !flags.any (·.explicitGroup == some id) && flag.explicitGroup.isNone⟩ := by
      refine Grammar.group?_eq_some_iff.mpr ⟨⟨flag, by simp, grouped⟩, ?_⟩
      rw [members_concat, if_pos grouped, mark]
      simp
    rw [here, if_pos grouped]
    cases before : Grammar.group? { flags } id with
    | some group =>
      obtain ⟨-, rfl⟩ := Grammar.group?_eq_some_iff.mp before
      rfl
    | none =>
      -- The flag is the first of its group, so no flag before it has the mark.
      have first : ∀ other ∈ flags, other.group ≠ some id :=
        fun other member => Grammar.group?_eq_none_iff.mp before other member
      have unmarked : flags.any (·.explicitGroup == some id) = false := by
        refine List.any_eq_false.mpr fun other member marked => first other member ?_
        exact Flag.group_eq_some_iff.mpr (.inl (beq_iff_eq.mp marked))
      have empty : Grammar.members { flags } id = [] := by
        refine List.eq_nil_iff_forall_not_mem.mpr fun spelling inside => ?_
        obtain ⟨other, member, same, -⟩ := Grammar.mem_members.mp inside
        exact first other member same
      simp [unmarked, empty]
  · have mark : flag.explicitGroup ≠ some id := fun marked =>
      grouped (Flag.group_eq_some_iff.mpr (.inl marked))
    rw [if_neg grouped]
    cases before : Grammar.group? { flags } id with
    | none =>
      refine Grammar.group?_eq_none_iff.mpr fun other member => ?_
      rcases List.mem_append.mp member with old | new
      · exact Grammar.group?_eq_none_iff.mp before other old
      · obtain rfl := List.mem_singleton.mp new
        exact grouped
    | some group =>
      obtain ⟨⟨other, member, same⟩, rfl⟩ := Grammar.group?_eq_some_iff.mp before
      refine Grammar.group?_eq_some_iff.mpr ⟨⟨other, List.mem_append_left _ member, same⟩, ?_⟩
      rw [members_concat, if_neg grouped]
      simp [mark]

/-- The table of groups holds what the flags say. -/
theorem lookup_groupTable : (groupTable flags).lookup id = Grammar.group? { flags } id := by
  induction flags using List.reverseRecOn with
  | nil => rfl
  | append_singleton flags flag ih =>
    have entered : groupTable (flags ++ [flag]) = enterGroup (groupTable flags) flag := by
      rw [groupTable, List.foldl_append, List.foldl_cons, List.foldl_nil, groupTable]
    rw [entered, lookup_enterGroup, ih, group?_concat]

end GroupTable

/-! ### Positions of spellings -/

/-- What a compiler may keep of the flags beside the flags: their number, and the position of the flag
that each spelling is bound to. -/
structure Ledger where
  count : Nat := 0
  ids : Table Nat := []

namespace Ledger

/-- Binds those of the spellings to `id` that are not bound yet. -/
def bind (id : Nat) (ids : Table Nat) (spellings : List String) : Table Nat :=
  spellings.foldl
    (fun ids spelling => if (ids.lookup spelling).isSome then ids else ids.insert spelling id) ids

/-- A declaration binds its spellings to the flag that one of them is bound to, or else to a new one. -/
def declare (ledger : Ledger) (declared : FlagDeclaration) : Ledger :=
  match declared.spellings.findSome? (ledger.ids.lookup ·) with
  | some id => { ledger with ids := bind id ledger.ids declared.spellings }
  | none =>
    { count := ledger.count + 1, ids := bind ledger.count ledger.ids declared.spellings }

def declareAll (ledger : Ledger) (declarations : List Declaration) : Ledger :=
  (declarations.filterMap Declaration.flag?).foldl declare ledger

/-- The ledger holds what the flags say. -/
structure Keeps (ledger : Ledger) (flags : List Flag) : Prop where
  count : ledger.count = flags.length
  ids : ∀ spelling, ledger.ids.lookup spelling = flags.findIdx? (spelling ∈ ·.spellings)

variable {ledger : Ledger} {draft : Draft} {declared : FlagDeclaration} {flags : List Flag}

theorem lookup_bind (id : Nat) (ids : Table Nat) (spellings : List String) (spelling : String) :
    (bind id ids spellings).lookup spelling =
      (ids.lookup spelling).or (if spelling ∈ spellings then some id else none) := by
  induction spellings generalizing ids with
  | nil => simp [bind]
  | cons head rest ih =>
    rw [bind, List.foldl_cons]
    refine (ih _).trans ?_
    by_cases same : spelling = head
    · subst same
      cases known : ids.lookup spelling <;> simp [known]
    · have kept : (if (ids.lookup head).isSome then ids else ids.insert head id).lookup spelling =
          ids.lookup spelling := by
        split
        · rfl
        · exact Table.lookup_insert_other same id ids
      rw [kept]
      simp [same]

theorem findSome?_flagId?_eq_none_iff (apart : draft.grammar.flags.Pairwise Flag.Apart) :
    declared.spellings.findSome? draft.grammar.flagId? = none ↔
      draft.grammar.flags.filter (Draft.touches declared) = [] := by
  rw [List.findSome?_eq_none_iff]
  constructor
  · intro unbound
    refine List.eq_nil_iff_forall_not_mem.mpr fun flag member => ?_
    obtain ⟨spelling, named, found⟩ := (Draft.mem_touched apart).mp member
    have free := Grammar.flagId?_eq_none_iff.mp (unbound spelling named)
    rw [Grammar.canonical?, found] at free
    cases free
  · intro untouched spelling named
    have unbound := List.findSome?_eq_none_iff.mp (Draft.findSome?_untouched apart untouched)
    exact Grammar.flagId?_eq_none_iff.mpr (unbound spelling named)

/-- A fresh spelling goes to the position of any spelling that is bound beside it. -/
theorem findIdx?_fresh (apart : draft.grammar.flags.Pairwise Flag.Apart)
    (h : draft.declareFlag declared = .ok flags) {new known : String} {id : Nat}
    (fresh : new ∈ draft.fresh declared) (named : known ∈ declared.spellings)
    (bound : draft.grammar.flagId? known = some id) :
    flags.findIdx? (new ∈ ·.spellings) = some id := by
  rw [← Draft.findIdx?_declareFlag h bound]
  obtain ⟨inside, has, -⟩ := List.findIdx?_eq_some_iff_getElem.mp bound
  have mine : known ∈ draft.grammar.flags[id].spellings := by simpa using has
  have member : draft.grammar.flags[id] ∈ draft.grammar.flags := List.getElem_mem inside
  have touched : Draft.touches declared draft.grammar.flags[id] = true :=
    Draft.touches_iff.mpr ⟨known, mine, named⟩
  rcases Draft.declareFlag_ok_iff.mp h with ⟨untouched, -⟩ | ⟨-, single, rfl⟩
  · exact absurd touched (List.filter_eq_nil_iff.mp untouched _ member)
  · -- The flag that is touched has both spellings afterwards.
    have amended : draft.grammar.flags[id].amend declared (draft.fresh declared) ∈
        draft.grammar.flags.map fun flag =>
          if Draft.touches declared flag then flag.amend declared (draft.fresh declared) else flag :=
      List.mem_map.mpr ⟨_, member, if_pos touched⟩
    have separate := Draft.apart_amend apart single
    have shared := @Grammar.flagId?_of_shared { flags := _ } new separate _ known amended
    exact shared (by simp [fresh]) (by simp [mine])

/-- The position that a declaration binds a spelling to. -/
theorem findIdx?_declared (apart : draft.grammar.flags.Pairwise Flag.Apart)
    (h : draft.declareFlag declared = .ok flags) (spelling : String) :
    flags.findIdx? (spelling ∈ ·.spellings) =
      (draft.grammar.flagId? spelling).or (if spelling ∈ declared.spellings then
        (declared.spellings.findSome? draft.grammar.flagId?).or (some draft.grammar.flags.length)
      else none) := by
  rcases Draft.declareFlag_ok_iff.mp h with ⟨untouched, rfl⟩ | ⟨touched, single, same⟩
  · rw [List.findIdx?_append, (findSome?_flagId?_eq_none_iff apart).mpr untouched, Option.none_or]
    refine congrArg _ ?_
    by_cases named : spelling ∈ declared.spellings <;> simp [named, List.findIdx?_cons]
  · cases bound : draft.grammar.flagId? spelling with
    | some id => rw [Draft.findIdx?_declareFlag h bound, Option.some_or]
    | none =>
      have new : ∀ flag ∈ draft.grammar.flags, spelling ∉ flag.spellings :=
        Grammar.canonical?_eq_none_iff.mp (Grammar.flagId?_eq_none_iff.mp bound)
      rw [Option.none_or]
      by_cases named : spelling ∈ declared.spellings
      · rw [if_pos named]
        have fresh : spelling ∈ draft.fresh declared := Draft.mem_fresh.mpr ⟨named, new⟩
        cases first : declared.spellings.findSome? draft.grammar.flagId? with
        | some id =>
          obtain ⟨known, beside, found⟩ := List.exists_of_findSome?_eq_some first
          rw [findIdx?_fresh apart h fresh beside found, Option.some_or]
        | none => exact absurd ((findSome?_flagId?_eq_none_iff apart).mp first) touched
      · rw [if_neg named, same, List.findIdx?_map, List.findIdx?_eq_none_iff]
        intro flag member
        have stale : spelling ∉ draft.fresh declared := fun fresh => named (Draft.mem_fresh.mp fresh).1
        simp [Draft.mem_amended, stale, new flag member]

theorem length_declared (apart : draft.grammar.flags.Pairwise Flag.Apart)
    (h : draft.declareFlag declared = .ok flags) :
    flags.length = match declared.spellings.findSome? draft.grammar.flagId? with
      | some _ => draft.grammar.flags.length
      | none => draft.grammar.flags.length + 1 := by
  rcases Draft.declareFlag_ok_iff.mp h with ⟨untouched, rfl⟩ | ⟨touched, -, rfl⟩
  · rw [(findSome?_flagId?_eq_none_iff apart).mpr untouched]
    simp
  · cases first : declared.spellings.findSome? draft.grammar.flagId? with
    | some id => simp
    | none => exact absurd ((findSome?_flagId?_eq_none_iff apart).mp first) touched

theorem Keeps.declare (keeps : ledger.Keeps draft.grammar.flags)
    (apart : draft.grammar.flags.Pairwise Flag.Apart) (h : draft.declareFlag declared = .ok flags) :
    (ledger.declare declared).Keeps flags := by
  have known : (ledger.ids.lookup ·) = draft.grammar.flagId? := funext keeps.ids
  have length := length_declared apart h
  unfold Ledger.declare
  rw [known]
  cases first : declared.spellings.findSome? draft.grammar.flagId? with
  | some id =>
    rw [first] at length
    refine ⟨keeps.count.trans length.symm, fun spelling => ?_⟩
    rw [lookup_bind, findIdx?_declared apart h, keeps.ids, first]
    rfl
  | none =>
    rw [first] at length
    refine ⟨by rw [keeps.count, length], fun spelling => ?_⟩
    rw [lookup_bind, findIdx?_declared apart h, keeps.ids, keeps.count, first]
    rfl

/-- Declarations other than those of flags leave the flags as they are. -/
theorem Keeps.declareAny {declaration : Declaration} {next : Draft}
    (keeps : ledger.Keeps draft.grammar.flags) (apart : draft.grammar.flags.Pairwise Flag.Apart)
    (h : draft.declare declaration = .ok next) :
    (ledger.declareAll [declaration]).Keeps next.grammar.flags := by
  cases declaration with
  | set name =>
    cases name with
    | none =>
      obtain rfl := Except.ok.inj h
      exact keeps
    | some name =>
      obtain rfl := Except.ok.inj h
      rw [Draft.openSet_flags]
      exact keeps
  | slot slot =>
    obtain rfl := Except.ok.inj h
    exact keeps
  | flag declared =>
    obtain ⟨flags, declares, h⟩ := bind_ok.mp h
    obtain rfl := Except.ok.inj h
    exact keeps.declare apart declares

theorem declareAll_cons (ledger : Ledger) (declaration : Declaration) (declarations : List Declaration) :
    ledger.declareAll (declaration :: declarations) =
      (ledger.declareAll [declaration]).declareAll declarations := by
  cases declaration <;> rfl

/-- The ledger depends on the flags that are declared alone. -/
theorem declareAll_congr (ledger : Ledger) {first second : Declaration} (same : first.flag? = second.flag?) :
    ledger.declareAll [first] = ledger.declareAll [second] := by
  rw [declareAll, declareAll, List.filterMap_cons, List.filterMap_cons, same]

end Ledger

/-- A token of the language declares what the draft takes it for, but for the slot. -/
theorem Agrees.exists_declare {history : History} {draft next : Draft} {token : String}
    {declaration : Declaration} (agrees : Agrees history draft)
    (text : Language.TokenText history.set? token.toList declaration) (h : draft.addToken token = .ok next) :
    ∃ read, draft.declare read = .ok next ∧ read.flag? = declaration.flag? := by
  obtain ⟨read, reads, same⟩ := Language.exists_read text
  obtain ⟨other, readsToo, declares⟩ := bind_ok.mp h
  rw [agrees.read_sets] at readsToo
  obtain rfl : read = other := Except.ok.inj (reads.symm.trans readsToo)
  refine ⟨read, declares, ?_⟩
  rcases same with rfl | ⟨first, second, rfl, rfl⟩ <;> rfl

theorem Ledger.Keeps.addTokens {history : History} {ledger : Ledger} {draft last : Draft} {index : Nat}
    {tokens : List String} {declarations : List Declaration} (keeps : ledger.Keeps draft.grammar.flags)
    (agrees : Agrees history draft) (reads : Reads history tokens declarations)
    (h : draft.addTokens index tokens = .ok last) :
    (ledger.declareAll declarations).Keeps last.grammar.flags := by
  induction reads generalizing ledger draft index with
  | nil =>
    obtain rfl := Except.ok.inj h
    exact keeps
  | cons text free _ ih =>
    obtain ⟨next, added, after⟩ := agrees.exists_addToken text free
    obtain ⟨read, declares, same⟩ := agrees.exists_declare text added
    rw [Draft.addTokens, added] at h
    rw [Ledger.declareAll_cons, ← Ledger.declareAll_congr ledger same]
    exact ih (keeps.declareAny agrees.wellFormed.apart declares) after h

/-! ### Named sets -/

namespace History

theorem nodup_collected (name : String) (history : History) : (collected name history).Nodup := by
  induction history with
  | nil => exact List.nodup_nil
  | cons declaration earlier ih =>
    rw [collected]
    split
    · exact Names.nodup_addNew ih
    · exact ih

theorem mentioned_of_collected {name spelling : String} {history : History}
    (inside : spelling ∈ collected name history) : spelling ∈ mentioned history := by
  induction history with
  | nil => cases inside
  | cons declaration earlier ih =>
    rw [mentioned_cons, List.mem_append]
    rw [collected] at inside
    split at inside
    · rcases Names.mem_addNew.mp inside with old | new
      · exact .inr (ih old)
      · exact .inl new
    · exact .inr (ih inside)

end History

theorem Agrees.namedSet? {history : History} {draft : Draft} (agrees : Agrees history draft) {name : String}
    {members : List String} (known : draft.grammar.namedSet? name = some members) :
    members.Nodup ∧ ∀ spelling ∈ members, ∃ id, draft.grammar.flagId? spelling = some id := by
  rw [agrees.sets, History.set?] at known
  obtain ⟨-, same⟩ := Option.ite_none_right_eq_some.mp known
  obtain rfl := Option.some.inj same
  refine ⟨History.nodup_collected name history, fun spelling inside => ?_⟩
  have named := History.mentioned_of_collected inside
  rw [← Option.isSome_iff_exists, ← Option.ne_none_iff_isSome, ne_eq, Grammar.flagId?_eq_none_iff,
    agrees.bound, History.record?_eq_none_iff]
  exact not_not_intro named

/-! ### All tables -/

/-- The views of a grammar fit together. -/
structure Grammar.Consistent (grammar : Grammar) : Prop where
  spelled : ∀ flag ∈ grammar.flags, flag.spellings.head? = some flag.canonical ∧ flag.spellings.Nodup
  bound : ∀ spelling id, grammar.flagId? spelling = some id ↔
    ∃ flag, grammar.flags[id]? = some flag ∧ spelling ∈ flag.spellings
  known : ∀ spelling, spelling ∈ grammar.spellings ↔ ∃ id, grammar.flagId? spelling = some id
  ungrouped : ∀ flag ∈ grammar.flags,
    flag.group = none ↔ flag.repeatable = true ∧ flag.explicitGroup = none
  grouped : ∀ flag ∈ grammar.flags, ∀ id, flag.group = some id → ∃ group, grammar.group? id = some group
  groups : ∀ id group, grammar.group? id = some group →
    group.id = id ∧ group ∈ grammar.groups ∧ (∃ flag ∈ grammar.flags, flag.group = some id) ∧
    (∀ spelling, spelling ∈ group.members ↔
      ∃ flag ∈ grammar.flags, flag.group = some id ∧ spelling ∈ flag.spellings) ∧
    (group.implicit = true ↔ ∀ flag ∈ grammar.flags, flag.group = some id → flag.explicitGroup = none)
  sets : ∀ name members, grammar.namedSet? name = some members →
    members.Nodup ∧ ∀ spelling ∈ members, ∃ id, grammar.flagId? spelling = some id
  /-- The flag of a spelling and its group are found where the tables say. -/
  found : ∀ spelling id, grammar.flagId? spelling = some id →
    ∃ flag, grammar.flags[id]? = some flag ∧ grammar.flag? spelling = some flag ∧
      ∀ groupId, flag.group = some groupId →
        ∃ group, grammar.groupOf? spelling = some group ∧ group.id = groupId ∧ spelling ∈ group.members

namespace Grammar

variable {grammar : Grammar}

theorem WellFormed.consistent (good : grammar.WellFormed)
    (sets : ∀ name members, grammar.namedSet? name = some members →
      members.Nodup ∧ ∀ spelling ∈ members, ∃ id, grammar.flagId? spelling = some id) :
    grammar.Consistent where
  spelled flag member := ⟨rfl, (good.flags flag member).distinct⟩
  bound spelling id := flagId?_eq_some_iff good.apart
  known spelling := exists_flagId?_iff.symm
  ungrouped flag _ := Flag.group_eq_none_iff
  grouped flag member id marked := by
    exact ⟨_, group?_eq_some_iff.mpr ⟨⟨flag, member, marked⟩, rfl⟩⟩
  groups id group found := by
    obtain ⟨inhabited, rfl⟩ := group?_eq_some_iff.mp found
    exact ⟨rfl, mem_groups.mpr found, inhabited, fun spelling => mem_members, implicit_iff⟩
  sets := sets
  found spelling id bound := by
    obtain ⟨flag, here, mine⟩ := (flagId?_eq_some_iff good.apart).mp bound
    have member : flag ∈ grammar.flags := List.mem_of_getElem? here
    have finds : grammar.flag? spelling = some flag := (flag?_eq_some_iff good.apart).mpr ⟨member, mine⟩
    refine ⟨flag, here, finds, fun groupId marked => ?_⟩
    have grouped := groupOf?_of_mem good.apart member mine marked
    exact ⟨_, grouped, rfl, mem_members.mpr ⟨flag, member, marked, mine⟩⟩

end Grammar

/-- What a compiled grammar says of flags, spellings, groups and sets fits together, and tables of
positions and groups that are kept while compiling hold the same. -/
theorem compile_consistent {tokens : List String} {grammar : Grammar}
    (h : Grammar.compile tokens = .ok grammar) :
    grammar.Consistent ∧ (∀ id, (groupTable grammar.flags).lookup id = grammar.group? id) ∧
      (∃ declarations, Reads [] tokens declarations) ∧
      ∀ declarations, Reads [] tokens declarations →
        let ledger := Ledger.declareAll {} declarations
        ledger.count = grammar.flags.length ∧
          ∀ spelling, ledger.ids.lookup spelling = grammar.flagId? spelling := by
  obtain ⟨declared, read⟩ := exists_reads_of_compile h
  obtain ⟨draft, compiled, agrees⟩ := read.exists_compile
  obtain rfl : draft.grammar = grammar := Except.ok.inj (compiled.symm.trans h)
  refine ⟨agrees.wellFormed.consistent fun name members => agrees.namedSet?,
    lookup_groupTable draft.grammar.flags, ⟨declared, read⟩, fun declarations reads => ?_⟩
  obtain ⟨last, added, same⟩ := compile_ok_iff.mp h
  have keeps : Ledger.Keeps {} ({} : Draft).grammar.flags := ⟨rfl, fun _ => rfl⟩
  obtain ⟨count, ids⟩ := keeps.addTokens agrees_start reads added
  rw [same] at count ids
  exact ⟨count, ids⟩

/-- The group `-a` is the own group of the first flag and the explicit group of the last. -/
theorem compile_consistent_shared :
    let tokens := ["+s", "\x7b-a,--all\x7d", "*-v", "+", "(g)\x7b-v,-w\x7d", "(-a)-b"]
    ∃ grammar, Grammar.compile tokens = .ok grammar ∧ grammar.Consistent ∧
      grammar.flagId? "-w" = some 1 ∧ grammar.namedSet? "s" = some ["-a", "--all", "-v"] ∧
      grammar.groups = [⟨"-a", ["--all", "-a", "-b"], false⟩, ⟨"g", ["-v", "-w"], false⟩] := by
  intro tokens
  have compiled : Grammar.compile tokens = .ok _ := rfl
  exact ⟨_, compiled, (compile_consistent compiled).1, by decide, by decide, by decide⟩

end ShellCompletion
