import ShellCompletion.Proofs.Grammar.Language
import ShellCompletion.Proofs.Grammar.WellFormed

/-!
# The declarations so far

A history holds what the tokens read so far have declared, the latest first. It says which set is open,
what the sets hold, and which record a spelling is bound to; none of this needs a draft. A draft agrees
with the history of its tokens (`Agrees.declare`), and a declaration is refused exactly if it conflicts
with the history (`exists_declare_iff`). So the tokens that a draft takes are those that `Reads` admits
(`exists_reads`, `Reads.exists_addTokens`).
-/

namespace ShellCompletion

open ShellCompletion.Language

def Declaration.spellings : Declaration → List String
  | .flag declared => declared.spellings
  | _ => []

def Declaration.flag? : Declaration → Option FlagDeclaration
  | .flag declared => some declared
  | _ => none

def mentioned (declarations : List Declaration) : List String := declarations.flatMap Declaration.spellings

@[simp] theorem mem_mentioned_reverse {declarations : List Declaration} {spelling : String} :
    spelling ∈ mentioned declarations.reverse ↔ spelling ∈ mentioned declarations := by
  simp [mentioned]

theorem mentioned_cons (declaration : Declaration) (declarations : List Declaration) :
    mentioned (declaration :: declarations) = declaration.spellings ++ mentioned declarations := rfl

/-- The declarations that mention a spelling of the flag, in order. -/
def about (declarations : List Declaration) (flag : Flag) : List FlagDeclaration :=
  (declarations.filterMap Declaration.flag?).filter (Draft.touches · flag)

/-- The flag is what the declarations say, if they are all that mention it. -/
structure Flag.DescribedBy (flag : Flag) (declarations : List FlagDeclaration) : Prop where
  canonical : declarations.head?.map (·.first) = some flag.canonical
  repeatable : flag.repeatable = declarations.any (·.repeatable)
  chain : flag.chain = (declarations.filterMap (·.chain)).getLast?.getD {}
  explicitGroup : flag.explicitGroup = (declarations.filterMap (·.group)).getLast?

abbrev History := List Declaration

namespace History

/-- The set that was switched to last, unless sets were switched off since. -/
def current? : History → Option String
  | [] => none
  | .set name :: _ => name
  | _ :: earlier => current? earlier

/-- The spellings mentioned while the set `name` was the current one, each once. -/
def collected (name : String) : History → List String
  | [] => []
  | declaration :: earlier =>
    if current? earlier = some name then Names.addNew (collected name earlier) declaration.spellings
    else collected name earlier

/-- The content of the set `name`, if it was ever switched to. -/
def set? (history : History) (name : String) : Option (List String) :=
  if .set (some name) ∈ history then some (collected name history) else none

/-- The record that a spelling is bound to, named after its first spelling. The first declaration that
mentions the spelling binds it: to the record of the spellings that are bound already, or else to a new
one. -/
def record? : History → String → Option String
  | [], _ => none
  | declaration :: earlier, spelling =>
    (record? earlier spelling).or <|
      if spelling ∈ declaration.spellings then
        (declaration.spellings.findSome? (record? earlier)).or declaration.spellings.head?
      else none

end History

/-- One of the spellings is bound to no record, and two of them are bound to different ones. -/
def Conflict (record? : String → Option String) (spellings : List String) : Prop :=
  (∃ new ∈ spellings, record? new = none) ∧
    ∃ first ∈ spellings, ∃ second ∈ spellings, ∃ left right,
      record? first = some left ∧ record? second = some right ∧ left ≠ right

/-- The tokens, read from left to right after `history`, make the declarations: each is a token of the
language with the sets as they are at that point, and none conflicts with what was declared before. -/
inductive Reads : History → List String → List Declaration → Prop where
  | nil {history : History} : Reads history [] []
  | cons {history : History} {token : String} {tokens : List String} {declaration : Declaration}
    {declarations : List Declaration} :
    TokenText history.set? token.toList declaration → ¬ Conflict history.record? declaration.spellings →
    Reads (declaration :: history) tokens declarations →
    Reads history (token :: tokens) (declaration :: declarations)

/-! ### What a history says -/

namespace History

variable {history : History} {name spelling : String}

theorem mem_of_current? (current : history.current? = some name) : .set (some name) ∈ history := by
  induction history with
  | nil => cases current
  | cons declaration earlier ih =>
    cases declaration with
    | set other =>
      obtain rfl : other = some name := current
      exact List.mem_cons_self ..
    | slot => exact List.mem_cons_of_mem _ (ih current)
    | flag => exact List.mem_cons_of_mem _ (ih current)

theorem collected_of_not_mem (absent : .set (some name) ∉ history) : collected name history = [] := by
  induction history with
  | nil => rfl
  | cons declaration earlier ih =>
    obtain ⟨-, before⟩ := not_or.mp (mt List.mem_cons.mpr absent)
    rw [collected, if_neg (mt mem_of_current? before), ih before]

theorem collected_mute {declaration : Declaration} (mute : declaration.spellings = []) :
    collected name (declaration :: history) = collected name history := by
  rw [collected, mute]
  split <;> rfl

theorem record?_mute {declaration : Declaration} (mute : declaration.spellings = []) :
    record? (declaration :: history) spelling = record? history spelling := by
  simp [record?, mute]

theorem set?_mute {declaration : Declaration} (mute : declaration.spellings = [])
    (other : ∀ name, declaration ≠ .set (some name)) : set? (declaration :: history) = history.set? := by
  funext name
  simp only [set?, collected_mute mute, List.mem_cons, (other name).symm, false_or]

theorem set?_openSet (opened : String) :
    set? (.set (some opened) :: history) name =
      if name = opened then some ((history.set? opened).getD []) else history.set? name := by
  unfold set?
  rw [collected_mute rfl]
  by_cases same : name = opened
  · subst same
    rw [if_pos (List.mem_cons_self ..), if_pos rfl]
    split
    next => rfl
    next absent => rw [collected_of_not_mem absent]; rfl
  · simp [same]

theorem set?_flag (declared : FlagDeclaration) :
    set? (.flag declared :: history) name = (history.set? name).map fun members =>
      if history.current? = some name then Names.addNew members declared.spellings else members := by
  unfold set?
  simp only [List.mem_cons, reduceCtorEq, false_or]
  split
  next => rw [collected, Option.map_some]; rfl
  next => rfl

theorem record?_eq_none_iff : history.record? spelling = none ↔ spelling ∉ mentioned history := by
  induction history with
  | nil => simp [record?, mentioned]
  | cons declaration earlier ih =>
    rw [record?, Option.or_eq_none_iff, ih, mentioned_cons, List.mem_append, not_or, and_comm]
    refine and_congr_left' ?_
    by_cases named : spelling ∈ declaration.spellings
    · have filled : declaration.spellings ≠ [] := List.ne_nil_of_mem named
      simp [named, filled]
    · simp [named]

/-- A record is named after a spelling that was mentioned. -/
theorem mem_of_record? {id : String} (bound : history.record? spelling = some id) :
    id ∈ mentioned history := by
  induction history generalizing spelling with
  | nil => cases bound
  | cons declaration earlier ih =>
    rw [mentioned_cons, List.mem_append]
    rw [record?, Option.or_eq_some_iff] at bound
    rcases bound with before | ⟨-, here⟩
    · exact .inr (ih before)
    · obtain ⟨-, here⟩ := Option.ite_none_right_eq_some.mp here
      rcases Option.or_eq_some_iff.mp here with joined | ⟨-, first⟩
      · obtain ⟨other, -, found⟩ := List.exists_of_findSome?_eq_some joined
        exact .inr (ih found)
      · exact .inl (List.mem_of_mem_head? first)

theorem exists_record? (bound : spelling ∈ mentioned history) : ∃ id, history.record? spelling = some id := by
  cases found : history.record? spelling with
  | none => exact absurd bound (record?_eq_none_iff.mp found)
  | some id => exact ⟨id, rfl⟩

theorem record?_of_new {declaration : Declaration} (named : spelling ∈ declaration.spellings)
    (new : spelling ∉ mentioned history) :
    record? (declaration :: history) spelling =
      (declaration.spellings.findSome? history.record?).or declaration.spellings.head? := by
  rw [record?, record?_eq_none_iff.mpr new, Option.none_or, if_pos named]

/-- A new spelling joins the record of any that is mentioned beside it and is bound already. -/
theorem record?_join {declaration : Declaration} (free : ¬ Conflict history.record? declaration.spellings)
    (named : spelling ∈ declaration.spellings) (new : spelling ∉ mentioned history) {other : String}
    (beside : other ∈ declaration.spellings) (bound : other ∈ mentioned history) :
    record? (declaration :: history) spelling = history.record? other := by
  obtain ⟨id, found⟩ := exists_record? bound
  rw [record?_of_new named new, found]
  cases first : declaration.spellings.findSome? history.record? with
  | none => rw [List.findSome?_eq_none_iff.mp first other beside] at found; cases found
  | some joined =>
    obtain ⟨earlier, mentioned, record⟩ := List.exists_of_findSome?_eq_some first
    rw [Option.some_or, Option.some_inj]
    exact Decidable.byContradiction fun differ => free
      ⟨⟨spelling, named, record?_eq_none_iff.mpr new⟩, earlier, mentioned, other, beside, _, _, record, found, differ⟩

theorem record?_make {declaration : Declaration} (named : spelling ∈ declaration.spellings)
    (new : ∀ other ∈ declaration.spellings, other ∉ mentioned history) :
    record? (declaration :: history) spelling = declaration.spellings.head? := by
  have none : declaration.spellings.findSome? history.record? = none :=
    List.findSome?_eq_none_iff.mpr fun other beside => record?_eq_none_iff.mpr (new other beside)
  rw [record?_of_new named (new spelling named), none, Option.none_or]

/-- Later declarations do not bind a spelling anew. -/
theorem record?_append (later : History) (bound : spelling ∈ mentioned history) :
    record? (later ++ history) spelling = history.record? spelling := by
  induction later with
  | nil => rfl
  | cons declaration later ih =>
    obtain ⟨id, found⟩ := exists_record? bound
    rw [List.cons_append, record?, ih, found, Option.some_or]

/-- A declaration with a new spelling has all of its spellings in one record. -/
theorem record?_together {declaration : Declaration}
    (free : ¬ Conflict history.record? declaration.spellings) {new other : String}
    (named : new ∈ declaration.spellings) (first : new ∉ mentioned history)
    (beside : other ∈ declaration.spellings) :
    record? (declaration :: history) other = record? (declaration :: history) new := by
  -- A bound spelling keeps its record, and the new one joins that; otherwise both make the same one.
  by_cases old : other ∈ mentioned history
  · have kept : record? (declaration :: history) other = history.record? other := record?_append [_] old
    rw [kept, record?_join free named first beside old]
  · by_cases known : ∃ bound ∈ declaration.spellings, bound ∈ mentioned history
    · obtain ⟨bound, inside, earlier⟩ := known
      rw [record?_join free named first inside earlier, record?_join free beside old inside earlier]
    · have all : ∀ spelling ∈ declaration.spellings, spelling ∉ mentioned history :=
        fun spelling inside earlier => known ⟨spelling, inside, earlier⟩
      rw [record?_make named all, record?_make beside all]

end History

/-! ### One declaration -/

/-- The canonical spelling of the flag that a spelling finds. -/
def Grammar.canonical? (grammar : Grammar) (spelling : String) : Option String :=
  (grammar.flag? spelling).map Flag.canonical

theorem Grammar.canonical?_eq_none_iff {grammar : Grammar} {spelling : String} :
    grammar.canonical? spelling = none ↔ ∀ flag ∈ grammar.flags, spelling ∉ flag.spellings := by
  rw [Grammar.canonical?, Option.map_eq_none_iff, Grammar.flag?_eq_none_iff]

namespace Draft

variable {draft : Draft} {declared : FlagDeclaration} {flags : List Flag}

theorem namedSet?_openSet (grammar : Grammar) (opened name : String) :
    (openSet grammar opened).namedSet? name =
      if name = opened then some ((grammar.namedSet? opened).getD []) else grammar.namedSet? name := by
  unfold openSet
  cases known : grammar.namedSet? opened with
  | some members =>
    rw [if_pos (Option.isSome_some ..)]
    by_cases same : name = opened
    · rw [if_pos same, same, known, Option.getD_some]
    · rw [if_neg same]
  | none =>
    rw [if_neg (by simp), Grammar.namedSet?, List.lookup_append]
    change (grammar.namedSet? name).or _ = _
    by_cases same : name = opened
    · simp [same, known]
    · simp [same, List.lookup_cons, beq_false_of_ne same]

theorem lookup_collect (draft : Draft) (spellings : List String) (name : String) :
    (draft.collect spellings).lookup name = (draft.grammar.namedSet? name).map fun members =>
      if draft.current = some name then Names.addNew members spellings else members := by
  unfold collect Grammar.namedSet?
  induction draft.grammar.sets with
  | nil => rfl
  | cons entry rest ih =>
    obtain ⟨other, members⟩ := entry
    rw [List.map_cons]
    by_cases same : name = other
    · subst same
      by_cases current : draft.current = some name
      · simp [current]
      · simp [current]
    · by_cases current : draft.current = some other
      · simpa [List.lookup_cons, beq_false_of_ne same, current] using ih
      · simpa [List.lookup_cons, beq_false_of_ne same, current] using ih

variable {draft : Draft} {declared : FlagDeclaration} {flags : List Flag} {spelling : String}

theorem touches_iff {flag : Flag} :
    touches declared flag = true ↔ ∃ spelling ∈ flag.spellings, spelling ∈ declared.spellings := by
  simp [touches]

theorem mem_amended {flag : Flag} {fresh : List String} :
    spelling ∈ (if touches declared flag then flag.amend declared fresh else flag).spellings ↔
      spelling ∈ flag.spellings ∨ touches declared flag = true ∧ spelling ∈ fresh := by
  split
  next touched => simp [touched]
  next untouched => simp [untouched]

@[simp] theorem spellings_ofDeclaration (declared : FlagDeclaration) :
    (Flag.ofDeclaration declared).spellings = declared.spellings := rfl

theorem mem_touched (apart : draft.grammar.flags.Pairwise Flag.Apart) {flag : Flag} :
    flag ∈ draft.grammar.flags.filter (touches declared) ↔
      ∃ spelling ∈ declared.spellings, draft.grammar.flag? spelling = some flag := by
  simp only [List.mem_filter, Grammar.flag?_eq_some_iff apart, touches_iff]
  constructor
  · rintro ⟨member, spelling, mine, named⟩
    exact ⟨spelling, named, member, mine⟩
  · rintro ⟨spelling, named, member, mine⟩
    exact ⟨member, spelling, mine, named⟩

/-- Where one flag alone is touched, any spelling of the declaration that is bound finds it. -/
theorem findSome?_canonical {touched : Flag} (apart : draft.grammar.flags.Pairwise Flag.Apart)
    (single : draft.grammar.flags.filter (touches declared) = [touched]) :
    declared.spellings.findSome? draft.grammar.canonical? = some touched.canonical := by
  obtain ⟨spelling, named, found⟩ := (mem_touched apart).mp (single ▸ List.mem_cons_self ..)
  cases first : declared.spellings.findSome? draft.grammar.canonical? with
  | none =>
    have unbound := List.findSome?_eq_none_iff.mp first spelling named
    rw [Grammar.canonical?, found] at unbound
    cases unbound
  | some id =>
    obtain ⟨other, mentioned, bound⟩ := List.exists_of_findSome?_eq_some first
    obtain ⟨flag, here, rfl⟩ := Option.map_eq_some_iff.mp bound
    have member := (mem_touched apart).mpr ⟨other, mentioned, here⟩
    rw [single, List.mem_singleton] at member
    rw [member]

theorem findSome?_untouched (apart : draft.grammar.flags.Pairwise Flag.Apart)
    (untouched : draft.grammar.flags.filter (touches declared) = []) :
    declared.spellings.findSome? draft.grammar.canonical? = none := by
  refine List.findSome?_eq_none_iff.mpr fun other named => ?_
  rw [Grammar.canonical?, Option.map_eq_none_iff, Option.eq_none_iff_forall_ne_some]
  intro flag found
  have member := (mem_touched apart).mpr ⟨other, named, found⟩
  rw [untouched] at member
  cases member

theorem canonical?_amended (draft : Draft) (declared : FlagDeclaration) (spelling : String) :
    ((draft.grammar.flags.map fun flag =>
        if touches declared flag then flag.amend declared (draft.fresh declared) else flag).find?
      (spelling ∈ ·.spellings)).map Flag.canonical =
    (draft.grammar.flags.find? fun flag => decide (spelling ∈ flag.spellings ∨
      touches declared flag = true ∧ spelling ∈ draft.fresh declared)).map Flag.canonical := by
  have kept : Flag.canonical ∘ (fun flag =>
      if touches declared flag then flag.amend declared (draft.fresh declared) else flag) =
        Flag.canonical := by
    funext flag
    dsimp only [Function.comp_apply]
    split <;> rfl
  rw [List.find?_map, Option.map_map, kept]
  simp only [Function.comp_def, mem_amended]

theorem find?_amended_of_fresh {flag : Flag} (new : spelling ∈ draft.fresh declared)
    (alone : draft.grammar.flags.filter (touches declared) = [flag]) :
    (draft.grammar.flags.find? fun flag => decide (spelling ∈ flag.spellings ∨
      touches declared flag = true ∧ spelling ∈ draft.fresh declared)) = some flag := by
  obtain ⟨-, absent⟩ := mem_fresh.mp new
  have same : draft.grammar.flags.filter (fun flag => decide (spelling ∈ flag.spellings ∨
      touches declared flag = true ∧ spelling ∈ draft.fresh declared)) = [flag] := by
    rw [← alone]
    refine List.filter_congr fun flag member => ?_
    simp [absent flag member, new]
  rw [← List.head?_filter, same, List.head?_cons]

/-- The record that a spelling is bound to after a declaration. -/
theorem canonical?_declareFlag (apart : draft.grammar.flags.Pairwise Flag.Apart)
    (h : draft.declareFlag declared = .ok flags) (spelling : String) :
    (flags.find? (spelling ∈ ·.spellings)).map Flag.canonical =
      (draft.grammar.canonical? spelling).or
        (if spelling ∈ declared.spellings then
          (declared.spellings.findSome? draft.grammar.canonical?).or declared.spellings.head?
        else none) := by
  rcases declareFlag_ok_iff.mp h with ⟨untouched, rfl⟩ | ⟨touched, single, rfl⟩
  · rw [List.find?_append, Option.map_or, findSome?_untouched apart untouched, Option.none_or]
    refine congrArg _ ?_
    by_cases named : spelling ∈ declared.spellings
    · simp only [List.find?_singleton, spellings_ofDeclaration, named, decide_true, if_true]
      rfl
    · simp [named]
  · rw [canonical?_amended]
    by_cases new : spelling ∈ draft.fresh declared
    · obtain ⟨named, absent⟩ := mem_fresh.mp new
      have few := single.resolve_left (List.ne_nil_of_mem new)
      have one := Nat.le_antisymm few (List.length_pos_iff.mpr touched)
      obtain ⟨flag, alone⟩ := List.length_eq_one_iff.mp one
      rw [find?_amended_of_fresh new alone, Grammar.canonical?_eq_none_iff.mpr absent, Option.none_or,
        if_pos named, findSome?_canonical apart alone]
      rfl
    · simp only [new, and_false, or_false]
      by_cases named : spelling ∈ declared.spellings
      · cases bound : draft.grammar.canonical? spelling with
        | none => exact absurd (mem_fresh.mpr ⟨named, Grammar.canonical?_eq_none_iff.mp bound⟩) new
        | some id => exact bound.trans (Option.some_or ..).symm
      · rw [if_neg named, Option.or_none]
        rfl

theorem conflict_iff (apart : draft.grammar.flags.Pairwise Flag.Apart) :
    Conflict draft.grammar.canonical? declared.spellings ↔
      draft.fresh declared ≠ [] ∧ 1 < (draft.grammar.flags.filter (touches declared)).length := by
  constructor
  · rintro ⟨⟨new, named, free⟩, first, inFirst, second, inSecond, a, b, atFirst, atSecond, differ⟩
    have fresh : new ∈ draft.fresh declared := mem_fresh.mpr ⟨named, Grammar.canonical?_eq_none_iff.mp free⟩
    refine ⟨List.ne_nil_of_mem fresh, Nat.lt_of_not_le fun few => differ ?_⟩
    obtain ⟨left, foundLeft, rfl⟩ := Option.map_eq_some_iff.mp atFirst
    obtain ⟨right, foundRight, rfl⟩ := Option.map_eq_some_iff.mp atSecond
    have memLeft := (mem_touched apart).mpr ⟨first, inFirst, foundLeft⟩
    have memRight := (mem_touched apart).mpr ⟨second, inSecond, foundRight⟩
    have one := Nat.le_antisymm few (List.length_pos_iff.mpr (List.ne_nil_of_mem memLeft))
    obtain ⟨flag, alone⟩ := List.length_eq_one_iff.mp one
    rw [alone, List.mem_singleton] at memLeft memRight
    rw [memLeft, memRight]
  · rintro ⟨some, many⟩
    obtain ⟨new, fresh⟩ := List.exists_mem_of_ne_nil _ some
    obtain ⟨named, free⟩ := mem_fresh.mp fresh
    have separate := apart.sublist (List.filter_sublist (p := touches declared))
    have finds {flag : Flag} (touched : flag ∈ draft.grammar.flags.filter (touches declared)) :
        ∃ spelling ∈ declared.spellings, draft.grammar.canonical? spelling = Option.some flag.canonical := by
      obtain ⟨spelling, mine, found⟩ := (mem_touched apart).mp touched
      exact ⟨spelling, mine, by rw [Grammar.canonical?, found, Option.map_some]⟩
    match touched : draft.grammar.flags.filter (touches declared) with
    | [] => rw [touched] at many; cases many
    | [_] => rw [touched] at many; exact absurd many (Nat.lt_irrefl 1)
    | left :: right :: more =>
      rw [touched] at separate finds
      obtain ⟨first, inFirst, foundLeft⟩ := finds (List.mem_cons_self ..)
      obtain ⟨second, inSecond, foundRight⟩ := finds (List.mem_cons_of_mem _ (List.mem_cons_self ..))
      refine ⟨⟨new, named, Grammar.canonical?_eq_none_iff.mpr free⟩, first, inFirst, second, inSecond, _, _,
        foundLeft, foundRight, fun same => ?_⟩
      have apart := (List.pairwise_cons.mp separate).1 right (List.mem_cons_self ..)
      exact apart left.canonical (List.mem_cons_self ..) (same ▸ List.mem_cons_self ..)

theorem exists_declareFlag_iff (apart : draft.grammar.flags.Pairwise Flag.Apart) :
    (∃ flags, draft.declareFlag declared = .ok flags) ↔
      ¬ Conflict draft.grammar.canonical? declared.spellings := by
  rw [conflict_iff apart, not_and, Nat.not_lt]
  constructor
  · rintro ⟨flags, h⟩ some
    rcases declareFlag_ok_iff.mp h with ⟨untouched, -⟩ | ⟨-, single, -⟩
    · rw [untouched]
      exact Nat.zero_le 1
    · exact single.resolve_left some
  · intro few
    have single : draft.fresh declared = [] ∨ (draft.grammar.flags.filter (touches declared)).length ≤ 1 :=
      Decidable.or_iff_not_imp_left.mpr few
    by_cases untouched : draft.grammar.flags.filter (touches declared) = []
    · exact ⟨_, declareFlag_ok_iff.mpr (.inl ⟨untouched, rfl⟩)⟩
    · exact ⟨_, declareFlag_ok_iff.mpr (.inr ⟨untouched, single, rfl⟩)⟩

end Draft

/-! ### What the declarations say of a flag -/

theorem about_append (first second : List Declaration) (flag : Flag) :
    about (first ++ second) flag = about first flag ++ about second flag := by
  rw [about, List.filterMap_append, List.filter_append, about, about]

theorem about_mute {declaration : Declaration} (mute : declaration.flag? = none)
    (declarations : List Declaration) (flag : Flag) :
    about (declarations ++ [declaration]) flag = about declarations flag := by
  simp [about, mute]

theorem mentioned_of_flag {declarations : List Declaration} {declared : FlagDeclaration}
    (member : declared ∈ declarations.filterMap Declaration.flag?) {spelling : String}
    (named : spelling ∈ declared.spellings) : spelling ∈ mentioned declarations := by
  obtain ⟨declaration, inside, same⟩ := List.mem_filterMap.mp member
  refine List.mem_flatMap.mpr ⟨declaration, inside, ?_⟩
  cases declaration with
  | flag => obtain rfl := Option.some.inj same; exact named
  | set => cases same
  | slot => cases same

theorem about_congr {declarations : List Declaration} {first second : Flag}
    (same : ∀ spelling ∈ mentioned declarations,
      spelling ∈ first.spellings ↔ spelling ∈ second.spellings) :
    about declarations first = about declarations second := by
  refine List.filter_congr fun declared member => ?_
  rw [Bool.eq_iff_iff, Draft.touches_iff, Draft.touches_iff]
  constructor
  · rintro ⟨spelling, mine, named⟩
    exact ⟨spelling, (same spelling (mentioned_of_flag member named)).mp mine, named⟩
  · rintro ⟨spelling, mine, named⟩
    exact ⟨spelling, (same spelling (mentioned_of_flag member named)).mpr mine, named⟩

theorem about_eq_nil {declarations : List Declaration} {flag : Flag}
    (new : ∀ spelling ∈ flag.spellings, spelling ∉ mentioned declarations) :
    about declarations flag = [] := by
  refine List.filter_eq_nil_iff.mpr fun declared member => ?_
  rw [Bool.not_eq_true, Draft.touches_eq_false_iff]
  exact fun spelling mine named => new spelling mine (mentioned_of_flag member named)

namespace Flag

theorem describedBy_ofDeclaration (declared : FlagDeclaration) :
    (ofDeclaration declared).DescribedBy [declared] where
  canonical := rfl
  repeatable := by simp [ofDeclaration]
  chain := by cases listed : declared.chain <;> simp [ofDeclaration, listed]
  explicitGroup := by cases grouped : declared.group <;> simp [ofDeclaration, grouped]

theorem DescribedBy.amend {flag : Flag} {declarations : List FlagDeclaration}
    (described : flag.DescribedBy declarations) (declared : FlagDeclaration) (fresh : List String) :
    (flag.amend declared fresh).DescribedBy (declarations ++ [declared]) where
  canonical := by
    have first := described.canonical
    obtain ⟨head, rest, rfl⟩ : ∃ head rest, declarations = head :: rest := by
      cases declarations with
      | nil => cases first
      | cons head rest => exact ⟨head, rest, rfl⟩
    exact first
  repeatable := by simp [Flag.amend, described.repeatable]
  chain := by
    rw [List.filterMap_append, List.getLast?_append]
    cases listed : declared.chain <;> simp [Flag.amend, listed, described.chain]
  explicitGroup := by
    rw [List.filterMap_append, List.getLast?_append]
    cases grouped : declared.group <;> simp [Flag.amend, grouped, described.explicitGroup]

end Flag

/-! ### Drafts and histories -/

/-- The draft is what the history says. -/
structure Agrees (history : History) (draft : Draft) : Prop where
  wellFormed : draft.grammar.WellFormed
  named : NamedSets history.set?
  current : draft.current = history.current?
  sets : ∀ name, draft.grammar.namedSet? name = history.set? name
  bound : ∀ spelling, draft.grammar.canonical? spelling = history.record? spelling
  flags : ∀ flag ∈ draft.grammar.flags, flag.DescribedBy (about history.reverse flag)

theorem agrees_start : Agrees [] {} where
  wellFormed := by constructor <;> simp
  named := by simp [NamedSets, History.set?]
  current := rfl
  sets _ := rfl
  bound _ := rfl
  flags := by simp

variable {history : History} {draft next : Draft}

theorem Agrees.mentioned_iff (agrees : Agrees history draft) {spelling : String} :
    spelling ∈ mentioned history.reverse ↔ ∃ flag ∈ draft.grammar.flags, spelling ∈ flag.spellings := by
  have unbound : history.record? spelling = none ↔ spelling ∉ mentioned history :=
    History.record?_eq_none_iff
  rw [← agrees.bound, Grammar.canonical?_eq_none_iff] at unbound
  rw [mem_mentioned_reverse, ← Decidable.not_iff_not, ← unbound]
  simp

theorem about_flag (declarations : List Declaration) (declared : FlagDeclaration) (flag : Flag) :
    about (declarations ++ [.flag declared]) flag =
      about declarations flag ++ if Draft.touches declared flag then [declared] else [] := by
  rw [about_append]
  simp [about, Declaration.flag?, List.filter_cons]

theorem Agrees.describedBy_new (agrees : Agrees history draft) {declared : FlagDeclaration}
    (untouched : draft.grammar.flags.filter (Draft.touches declared) = []) :
    (Flag.ofDeclaration declared).DescribedBy
      (about (history.reverse ++ [.flag declared]) (Flag.ofDeclaration declared)) := by
  have first : ∀ spelling ∈ declared.spellings, spelling ∉ mentioned history.reverse := by
    intro spelling named earlier
    obtain ⟨flag, known, mine⟩ := agrees.mentioned_iff.mp earlier
    have missed := List.filter_eq_nil_iff.mp untouched flag known
    rw [Bool.not_eq_true, Draft.touches_eq_false_iff] at missed
    exact missed spelling mine named
  have own : Draft.touches declared (Flag.ofDeclaration declared) = true :=
    Draft.touches_iff.mpr ⟨declared.first, List.mem_cons_self .., List.mem_cons_self ..⟩
  have before : about history.reverse (Flag.ofDeclaration declared) = [] := about_eq_nil first
  rw [about_flag, before, if_pos own, List.nil_append]
  exact Flag.describedBy_ofDeclaration declared

theorem Agrees.describedBy_amend (agrees : Agrees history draft) {declared : FlagDeclaration} {flag : Flag}
    (known : flag ∈ draft.grammar.flags) (touched : Draft.touches declared flag = true) :
    (flag.amend declared (draft.fresh declared)).DescribedBy
      (about (history.reverse ++ [.flag declared]) (flag.amend declared (draft.fresh declared))) := by
  -- The spellings that the flag gains were not mentioned before, so nothing more was said of it.
  have same : about history.reverse (flag.amend declared (draft.fresh declared)) =
      about history.reverse flag := by
    refine about_congr fun spelling earlier => ?_
    obtain ⟨other, inside, mine⟩ := agrees.mentioned_iff.mp earlier
    have stale : spelling ∉ draft.fresh declared := fun new => (Draft.mem_fresh.mp new).2 other inside mine
    simp [stale]
  have still : Draft.touches declared (flag.amend declared (draft.fresh declared)) = true := by
    obtain ⟨spelling, mine, named⟩ := Draft.touches_iff.mp touched
    exact Draft.touches_iff.mpr ⟨spelling, List.mem_append_left _ mine, named⟩
  rw [about_flag, same, if_pos still]
  exact (agrees.flags flag known).amend declared _

theorem Agrees.flags_declareFlag (agrees : Agrees history draft) {declared : FlagDeclaration}
    {flags : List Flag} (h : draft.declareFlag declared = .ok flags) :
    ∀ flag ∈ flags, flag.DescribedBy (about (history.reverse ++ [.flag declared]) flag) := by
  have unchanged {flag : Flag} (known : flag ∈ draft.grammar.flags)
      (missed : ¬ Draft.touches declared flag = true) :
      flag.DescribedBy (about (history.reverse ++ [.flag declared]) flag) := by
    rw [about_flag, if_neg missed, List.append_nil]
    exact agrees.flags flag known
  intro flag member
  rcases Draft.declareFlag_ok_iff.mp h with ⟨untouched, rfl⟩ | ⟨-, -, rfl⟩
  · rcases List.mem_append.mp member with old | new
    · exact unchanged old (List.filter_eq_nil_iff.mp untouched flag old)
    · obtain rfl := List.mem_singleton.mp new
      exact agrees.describedBy_new untouched
  · obtain ⟨old, known, rfl⟩ := List.mem_map.mp member
    by_cases touched : Draft.touches declared old = true
    · rw [if_pos touched]
      exact agrees.describedBy_amend known touched
    · rw [if_neg touched]
      exact unchanged known touched

/-- A declaration that mentions no spelling changes the sets only. -/
theorem Agrees.mute (agrees : Agrees history draft) {declaration : Declaration}
    (mute : declaration.spellings = [] ∧ declaration.flag? = none) (wellFormed : next.grammar.WellFormed)
    (flags : next.grammar.flags = draft.grammar.flags)
    (named : NamedSets (History.set? (declaration :: history)))
    (current : next.current = History.current? (declaration :: history))
    (sets : ∀ name, next.grammar.namedSet? name = History.set? (declaration :: history) name) :
    Agrees (declaration :: history) next where
  wellFormed := wellFormed
  named := named
  current := current
  sets := sets
  bound spelling := by
    rw [History.record?_mute mute.1, ← agrees.bound, Grammar.canonical?, Grammar.flag?, flags]
    rfl
  flags flag member := by
    rw [List.reverse_cons, about_mute mute.2]
    exact agrees.flags flag (flags ▸ member)

theorem Agrees.openSet (agrees : Agrees history draft) {opened : String} (name : NameText opened.toList)
    (h : draft.declare (.set (some opened)) = .ok next) (wellFormed : next.grammar.WellFormed) :
    Agrees (.set (some opened) :: history) next := by
  obtain rfl := Except.ok.inj h
  refine agrees.mute ⟨rfl, rfl⟩ wellFormed (Draft.openSet_flags ..) ?_ rfl fun other => ?_
  · intro other known
    rw [History.set?_openSet] at known
    by_cases same : other = opened
    · rwa [same]
    · rw [if_neg same] at known
      exact agrees.named other known
  · rw [Draft.namedSet?_openSet, History.set?_openSet, agrees.sets, agrees.sets]

theorem Agrees.declareFlag (agrees : Agrees history draft) {declared : FlagDeclaration}
    (h : draft.declare (.flag declared) = .ok next) (wellFormed : next.grammar.WellFormed) :
    Agrees (.flag declared :: history) next := by
  obtain ⟨flags, declares, h⟩ := bind_ok.mp h
  obtain rfl := Except.ok.inj h
  exact {
    wellFormed := wellFormed
    named := by
      intro name known
      rw [History.set?_flag, Option.isSome_map] at known
      exact agrees.named name known
    current := agrees.current
    sets := by
      intro name
      rw [History.set?_flag, ← agrees.sets, ← agrees.current]
      exact Draft.lookup_collect draft _ name
    bound := by
      intro spelling
      have known : draft.grammar.canonical? = history.record? := funext agrees.bound
      rw [History.record?, ← known]
      exact Draft.canonical?_declareFlag agrees.wellFormed.apart declares spelling
    flags := by
      rw [List.reverse_cons]
      exact agrees.flags_declareFlag declares }

theorem Agrees.declare (agrees : Agrees history draft) {declaration : Declaration}
    (text : ∃ token, TokenText history.set? token declaration) (wellFormed : declaration.WellFormed)
    (h : draft.declare declaration = .ok next) : Agrees (declaration :: history) next := by
  have good := Draft.declare_wellFormed agrees.wellFormed wellFormed h
  cases declaration with
  | set name =>
    cases name with
    | none =>
      obtain rfl := Except.ok.inj h
      have same : History.set? (.set none :: history) = history.set? := History.set?_mute rfl (by simp)
      exact agrees.mute ⟨rfl, rfl⟩ good rfl (same ▸ agrees.named) rfl (same ▸ agrees.sets)
    | some opened =>
      obtain ⟨token, text⟩ := text
      cases text with
      | openSet name => exact agrees.openSet name h good
  | slot slot =>
    obtain rfl := Except.ok.inj h
    have same : History.set? (.slot slot :: history) = history.set? := History.set?_mute rfl (by simp)
    exact agrees.mute ⟨rfl, rfl⟩ good rfl (same ▸ agrees.named) agrees.current (same ▸ agrees.sets)
  | flag declared => exact agrees.declareFlag h good

theorem Agrees.exists_declare_iff (agrees : Agrees history draft) {declaration : Declaration} :
    (∃ next, draft.declare declaration = .ok next) ↔
      ¬ Conflict history.record? declaration.spellings := by
  cases declaration with
  | set name => cases name <;> simp [Conflict, Declaration.spellings, Draft.declare]
  | slot slot => simp [Conflict, Declaration.spellings, Draft.declare]
  | flag declared =>
    have known : draft.grammar.canonical? = history.record? := funext agrees.bound
    rw [← known, Declaration.spellings, ← Draft.exists_declareFlag_iff agrees.wellFormed.apart]
    constructor
    · rintro ⟨next, h⟩
      obtain ⟨flags, declares, -⟩ := bind_ok.mp h
      exact ⟨flags, declares⟩
    · rintro ⟨flags, declares⟩
      exact ⟨_, bind_ok.mpr ⟨flags, declares, rfl⟩⟩

/-! ### One token after another -/

theorem Agrees.read_sets (agrees : Agrees history draft) : draft.grammar.namedSet? = history.set? :=
  funext agrees.sets

theorem Agrees.addToken (agrees : Agrees history draft) {token : String}
    (h : draft.addToken token = .ok next) :
    ∃ declaration, TokenText history.set? token.toList declaration ∧
      ¬ Conflict history.record? declaration.spellings ∧ Agrees (declaration :: history) next := by
  obtain ⟨declaration, read, declares⟩ := bind_ok.mp h
  have wellFormed := read_wellFormed (Grammar.namedSet?_spelled agrees.wellFormed.sets) read
  rw [agrees.read_sets] at read
  have text := tokenText_of_read agrees.named read
  exact ⟨declaration, text, agrees.exists_declare_iff.mp ⟨next, declares⟩,
    agrees.declare ⟨_, text⟩ wellFormed declares⟩

/-- Which slot a declaration adds is all the same to the history. -/
theorem Agrees.other_slot {first second : Slot} (agrees : Agrees (.slot first :: history) draft) :
    Agrees (.slot second :: history) draft := by
  have sets (slot : Slot) : History.set? (.slot slot :: history) = history.set? :=
    History.set?_mute rfl (by simp)
  have record (slot : Slot) (spelling : String) :
      History.record? (.slot slot :: history) spelling = history.record? spelling := History.record?_mute rfl
  have said (slot : Slot) (flag : Flag) :
      about (List.reverse (.slot slot :: history)) flag = about history.reverse flag := by
    rw [List.reverse_cons, about_mute rfl]
  exact {
    wellFormed := agrees.wellFormed
    named := by rw [sets second, ← sets first]; exact agrees.named
    current := agrees.current
    sets := by rw [sets second, ← sets first]; exact agrees.sets
    bound := fun spelling => by rw [record second, ← record first]; exact agrees.bound spelling
    flags := fun flag member => by rw [said second, ← said first]; exact agrees.flags flag member }

theorem Agrees.exists_addToken (agrees : Agrees history draft) {token : String}
    {declaration : Declaration} (text : TokenText history.set? token.toList declaration)
    (free : ¬ Conflict history.record? declaration.spellings) :
    ∃ next, draft.addToken token = .ok next ∧ Agrees (declaration :: history) next := by
  obtain ⟨read, reads, same⟩ := exists_read text
  rw [← agrees.read_sets] at reads
  have wellFormed := read_wellFormed (Grammar.namedSet?_spelled agrees.wellFormed.sets) reads
  have spellings : read.spellings = declaration.spellings := by
    rcases same with rfl | ⟨first, second, rfl, rfl⟩ <;> rfl
  obtain ⟨next, declares⟩ := agrees.exists_declare_iff.mpr (spellings ▸ free)
  have whole := reads
  rw [agrees.read_sets] at whole
  have after := agrees.declare ⟨_, tokenText_of_read agrees.named whole⟩ wellFormed declares
  refine ⟨next, bind_ok.mpr ⟨read, reads, declares⟩, ?_⟩
  rcases same with rfl | ⟨first, second, rfl, rfl⟩
  · exact after
  · exact after.other_slot

theorem Agrees.exists_reads (agrees : Agrees history draft) {index : Nat} {tokens : List String}
    {last : Draft} (h : draft.addTokens index tokens = .ok last) :
    ∃ declarations, Reads history tokens declarations := by
  -- Agreement is what a token keeps, so the history grows by one declaration as the draft goes on.
  induction tokens generalizing history draft index with
  | nil => exact ⟨[], .nil⟩
  | cons token rest ih =>
    unfold Draft.addTokens at h
    split at h
    next next added =>
      obtain ⟨declaration, text, free, after⟩ := agrees.addToken added
      obtain ⟨declarations, reads⟩ := ih after h
      exact ⟨_, .cons text free reads⟩
    next => cases h

/-- What the language reads, a draft takes, and agrees with it in the end. -/
theorem Reads.exists_addTokens {tokens : List String} {declarations : List Declaration}
    (reads : Reads history tokens declarations) (agrees : Agrees history draft) (index : Nat) :
    ∃ last, draft.addTokens index tokens = .ok last ∧ Agrees (declarations.reverse ++ history) last := by
  induction reads generalizing draft index with
  | nil => exact ⟨draft, rfl, agrees⟩
  | @cons history token tokens declaration declarations text free _ ih =>
    obtain ⟨next, added, after⟩ := agrees.exists_addToken text free
    obtain ⟨last, taken, agree⟩ := ih after (index + 1)
    refine ⟨last, ?_, ?_⟩
    · rw [Draft.addTokens, added]
      exact taken
    · rwa [List.reverse_cons, List.append_assoc]

theorem Reads.free {tokens : List String} {before after : List Declaration} {declaration : Declaration}
    (reads : Reads history tokens (before ++ declaration :: after)) :
    ¬ Conflict (History.record? (before.reverse ++ history)) declaration.spellings := by
  induction before generalizing history tokens with
  | nil =>
    cases reads with
    | cons _ free _ => exact free
  | cons first before ih =>
    cases reads with
    | cons _ _ later => simpa using ih later

theorem Reads.take {tokens : List String} {declarations : List Declaration}
    (reads : Reads history tokens declarations) (count : Nat) :
    Reads history (tokens.take count) (declarations.take count) := by
  induction reads generalizing count with
  | nil => simpa using .nil
  | cons text free _ ih =>
    cases count with
    | zero => exact .nil
    | succ count => exact .cons text free (ih count)

end ShellCompletion
