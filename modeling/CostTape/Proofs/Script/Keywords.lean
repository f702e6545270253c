import Mathlib.Data.List.Perm.Basic
import CostTape.Script.Builtin

/-! Arguments given by keyword may stand anywhere among the others. -/

namespace CostTape

namespace Names

variable {names others : Names α}

theorem mem_of_find? {name : String} {value : α} (found : names.find? name = some value) :
    (name, value) ∈ names := by
  obtain ⟨before, behind, rfl, -⟩ := List.lookup_eq_some_iff.mp found
  simp

/-- Where no name is given twice, each stands for whatever is given with it. -/
theorem find?_eq_some_iff (distinct : (names.map Prod.fst).Nodup) {name : String}
    {value : α} : names.find? name = some value ↔ (name, value) ∈ names := by
  refine ⟨mem_of_find?, fun member => ?_⟩
  induction names with
  | nil => cases member
  | cons entry names induction =>
      obtain ⟨key, first⟩ := entry
      rw [List.map_cons, List.nodup_cons] at distinct
      rw [find?_cons]
      rcases List.mem_cons.mp member with same | later
      · cases same
        exact if_pos rfl
      · have apart : name ≠ key := by
          rintro rfl
          exact distinct.1 (List.mem_map.mpr ⟨(name, value), later, rfl⟩)
        rw [if_neg apart]
        exact induction distinct.2 later

theorem find?_of_perm (distinct : (names.map Prod.fst).Nodup) (perm : names.Perm others)
    (name : String) : names.find? name = others.find? name := by
  have distinctOthers : (others.map Prod.fst).Nodup := (perm.map Prod.fst).nodup distinct
  ext value
  rw [find?_eq_some_iff distinct, find?_eq_some_iff distinctOthers, perm.mem_iff]

end Names

namespace Script

/-- The name that a value gives as the text of a keyword. -/
def Value.keyword? (value : Value) : Option String :=
  value.text?.bind Spelling.keywordName?

/-- An argument as it is written: a value in its place, or the text of a keyword and the
value that it takes, which may look like a keyword itself. -/
inductive WrittenArgument where
  | placed (value : Value) (plain : value.keyword? = none)
  | named (mark : Value) (name : String) (marks : mark.keyword? = some name)
    (value : Value)

namespace WrittenArgument

/-- What is written for an argument. -/
def values : WrittenArgument → List Value
  | placed value _ => [value]
  | named mark _ _ value => [mark, value]

def placed? : WrittenArgument → Option Value
  | placed value _ => some value
  | named _ _ _ _ => none

def named? : WrittenArgument → Option (String × Value)
  | placed _ _ => none
  | named _ name _ value => some (name, value)

end WrittenArgument

open WrittenArgument

namespace Arguments

theorem ofList_placed {value : Value} (plain : value.keyword? = none)
    (rest : List Value) : ofList (value :: rest) =
      { ofList rest with positional := value :: (ofList rest).positional } := by
  unfold Value.keyword? at plain
  cases rest with
  | nil => simp only [ofList, plain]
  | cons next rest => simp only [ofList, plain]

theorem ofList_named {mark : Value} {name : String} (marks : mark.keyword? = some name)
    (value : Value) {rest : List Value}
    (fresh : (ofList rest).keywords.find? name = none) : ofList (mark :: value :: rest) =
      { ofList rest with keywords := (name, value) :: (ofList rest).keywords } := by
  unfold Value.keyword? at marks
  simp only [ofList, marks, fresh, Option.isSome_none, Bool.false_eq_true, if_false]

variable {written reordered : List WrittenArgument}

/-- Arguments are taken apart as they were put together: a value that looks like a keyword
never gets out of step. -/
theorem ofList_values (distinct : ((written.filterMap named?).map Prod.fst).Nodup) :
    ofList (written.flatMap values) =
      ⟨written.filterMap placed?, written.filterMap named?⟩ := by
  induction written with
  | nil => simp only [List.flatMap_nil, List.filterMap_nil, ofList]
  | cons argument written induction =>
      cases argument with
      | placed value plain =>
          rw [List.flatMap_cons, values, List.singleton_append, ofList_placed plain,
            induction distinct]
          rfl
      | named mark name marks value =>
          have parts : name ∉ (written.filterMap named?).map Prod.fst ∧
              ((written.filterMap named?).map Prod.fst).Nodup :=
            List.nodup_cons.mp distinct
          have parsed := induction parts.2
          have fresh : (ofList (written.flatMap values)).keywords.find? name = none := by
            rw [parsed, Option.eq_none_iff_forall_ne_some]
            intro other found
            exact parts.1 (List.mem_map_of_mem (Names.mem_of_find? found))
          rw [List.flatMap_cons, values, List.cons_append, List.singleton_append,
            ofList_named marks value fresh, parsed]
          rfl

theorem find?_of_reordered (distinct : ((written.filterMap named?).map Prod.fst).Nodup)
    (perm : written.Perm reordered) (name : String) :
    (ofList (reordered.flatMap values)).keywords.find? name =
      (ofList (written.flatMap values)).keywords.find? name := by
  have named : (written.filterMap named?).Perm (reordered.filterMap named?) :=
    perm.filterMap _
  rw [ofList_values distinct, ofList_values ((named.map Prod.fst).nodup distinct)]
  exact (Names.find?_of_perm distinct named name).symm

end Arguments

namespace Builtin

open RecordingCall

/-- A dual number is made from its value, if that is the only one in a place, and from
what is found under the two keywords. -/
theorem applyDual_congr (name : String) {first second : List Value}
    (placed : (Arguments.ofList first).positional.Perm
      (Arguments.ofList second).positional)
    (found : ∀ key, (Arguments.ofList first).keywords.find? key =
      (Arguments.ofList second).keywords.find? key) :
    applyDual name first = applyDual name second := by
  have dims : dualDims (Arguments.ofList first).keywords =
      dualDims (Arguments.ofList second).keywords := by
    simp only [dualDims, found]
  have seed : dualSeed (Arguments.ofList first).keywords =
      dualSeed (Arguments.ofList second).keywords := by
    funext dims
    simp only [dualSeed, found]
  unfold applyDual
  simp only [dims, seed]
  rcases values : (Arguments.ofList first).positional with
    _ | ⟨value, _ | ⟨other, more⟩⟩ <;> rw [values] at placed
  · rw [List.nil_perm.mp placed]
  · rw [List.singleton_perm.mp placed]
  · -- More than one value is too many in whatever order.
    rcases others : (Arguments.ofList second).positional with
      _ | ⟨third, _ | ⟨fourth, rest⟩⟩
    · rfl
    · rw [others] at placed
      cases placed.length_eq
    · rfl

end Builtin

namespace Arguments

/-- Arguments with distinct keywords are taken apart into the values in places, in their
order, and what each keyword takes, and nothing else.  So they may be reordered as long as
the values in places keep their order, and a dual number does not depend on the order of
its arguments at all: it records the same, and gives the same value or fault. -/
theorem arguments_in_any_order {written : List WrittenArgument}
    (distinct : ((written.filterMap named?).map Prod.fst).Nodup) :
    (ofList (written.flatMap values)).positional = written.filterMap placed? ∧
    (∀ (name : String) (value : Value),
      (ofList (written.flatMap values)).keywords.find? name = some value ↔
        ∃ argument ∈ written, argument.named? = some (name, value)) ∧
    ∀ reordered : List WrittenArgument, written.Perm reordered →
      (reordered.filterMap placed? = written.filterMap placed? →
        (ofList (reordered.flatMap values)).positional =
            (ofList (written.flatMap values)).positional ∧
          ∀ name : String,
            (ofList (reordered.flatMap values)).keywords.find? name =
              (ofList (written.flatMap values)).keywords.find? name) ∧
      ∀ (name : String) (session : Session),
        (Builtin.dual.apply name (reordered.flatMap values)).runOn session =
          (Builtin.dual.apply name (written.flatMap values)).runOn session := by
  have parsed := ofList_values distinct
  refine ⟨by rw [parsed], fun name value => ?_, fun reordered perm => ?_⟩
  · rw [parsed, Names.find?_eq_some_iff distinct, List.mem_filterMap]
  · have distinctAgain : ((reordered.filterMap named?).map Prod.fst).Nodup :=
      ((perm.filterMap _).map Prod.fst).nodup distinct
    have found := find?_of_reordered distinct perm
    refine ⟨fun inOrder => ⟨?_, found⟩, fun name session => ?_⟩
    · rw [parsed, ofList_values distinctAgain, inOrder]
    · have placed : (ofList (reordered.flatMap values)).positional.Perm
          (ofList (written.flatMap values)).positional := by
        rw [parsed, ofList_values distinctAgain]
        exact (perm.filterMap _).symm
      exact congrArg (fun call => RecordingCall.runOn call session)
        (Builtin.applyDual_congr name placed found)

/-- The arguments of a dual number with two partials; a third keyword takes what would be
one of the other two. -/
def seededThree : List WrittenArgument :=
  [.placed (.int 3) rfl, .named (.text "__kw_seed") "seed" (by decide) (.int 1),
    .named (.text "__kw_note") "note" (by decide) (.text "__kw_dims"),
    .named (.text "__kw_dims") "dims" (by decide) (.int 2)]

theorem seededThree_reversed :
    ((seededThree.filterMap named?).map Prod.fst).Nodup ∧
    seededThree.Perm seededThree.reverse ∧
    seededThree.reverse.flatMap values =
      [.text "__kw_dims", .int 2, .text "__kw_note", .text "__kw_dims",
        .text "__kw_seed", .int 1, .int 3] ∧
    (ofList (seededThree.reverse.flatMap values)).positional = [.int 3] ∧
    (Builtin.dual.apply "dual" (seededThree.flatMap values)).runOn (.fresh "") =
      (.ok (.dual ⟨.bound 0, some [.bound 1, .bound 2]⟩),
        ((Builtin.dual.apply "dual" (seededThree.reverse.flatMap values)).runOn
          (.fresh "")).2) := by
  have distinct : ((seededThree.filterMap named?).map Prod.fst).Nodup := by decide
  have reversed : seededThree.Perm seededThree.reverse := (List.reverse_perm _).symm
  obtain ⟨placed, -, reordered⟩ := arguments_in_any_order distinct
  obtain ⟨inOrder, sameDual⟩ := reordered _ reversed
  refine ⟨distinct, reversed, rfl, (inOrder rfl).1.trans placed, ?_⟩
  rw [sameDual]
  rfl

end Arguments

end Script

end CostTape
