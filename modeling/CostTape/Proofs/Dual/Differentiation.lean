import Mathlib.Data.List.OfFn
import Mathlib.Tactic.FieldSimp
import CostTape.Proofs.Recording.Denotation

/-! Recorded dual numbers differentiate: what their slots hold is the value and the
partial derivatives that the rules of differentiation give. -/

namespace CostTape

universe u

/-- The interpretation computes in a field; named functions may be anything. -/
structure Interpretation.IsArithmetic {K : Type u} [Field K]
    (meaning : Interpretation K) : Prop where
  zero : meaning.literal 0.0 = 0
  one : meaning.literal 1.0 = 1
  two : meaning.literal 2.0 = 2
  neg : ∀ a : K, meaning.operation .unary "-" [a] = -a
  add : ∀ a b : K, meaning.operation .binary "+" [a, b] = a + b
  sub : ∀ a b : K, meaning.operation .binary "-" [a, b] = a - b
  mul : ∀ a b : K, meaning.operation .binary "*" [a, b] = a * b
  div : ∀ a b : K, meaning.operation .binary "/" [a, b] = a / b

namespace Interpretation.IsArithmetic

variable {K : Type u} [Field K] {meaning : Interpretation K} {graph : Graph}

theorem denotes_one (arithmetic : meaning.IsArithmetic) :
    (Handle.literal 1.0).Denotes meaning graph 1 :=
  arithmetic.one

theorem denotes_two (arithmetic : meaning.IsArithmetic) :
    (Handle.literal 2.0).Denotes meaning graph 2 :=
  arithmetic.two

end Interpretation.IsArithmetic

/-- A value and its partial derivatives with respect to `n` variables. -/
@[ext] structure DualNumber (K : Type u) (n : Nat) where
  primal : K
  partials : Fin n → K

namespace DualNumber

variable {K : Type u} [Field K] {n : Nat}

def constant (value : K) : DualNumber K n :=
  ⟨value, fun _ => 0⟩

def seeded (value : K) (slot : Fin n) : DualNumber K n :=
  ⟨value, fun k => if k = slot then 1 else 0⟩

def scale (x : DualNumber K n) (factor : K) : DualNumber K n :=
  ⟨x.primal * factor, fun k => x.partials k * factor⟩

def addScalar (x : DualNumber K n) (scalar : K) : DualNumber K n :=
  ⟨x.primal + scalar, x.partials⟩

def unary (meaning : Interpretation K) (x : DualNumber K n) :
    Dual.UnaryOperation → DualNumber K n
  | .neg => ⟨-x.primal, fun k => -x.partials k⟩
  | .sin => ⟨call "sin", fun k => call "cos" * x.partials k⟩
  | .cos => ⟨call "cos", fun k => -call "sin" * x.partials k⟩
  | .sqrt => ⟨call "sqrt", fun k => x.partials k / (2 * call "sqrt")⟩
  | .exp => ⟨call "exp", fun k => call "exp" * x.partials k⟩
  | .log => ⟨call "log", fun k => x.partials k / x.primal⟩
where
  call (name : String) : K := meaning.operation .call name [x.primal]

def binary (x y : DualNumber K n) : Dual.BinaryOperation → DualNumber K n
  | .add => ⟨x.primal + y.primal, fun k => x.partials k + y.partials k⟩
  | .sub => ⟨x.primal - y.primal, fun k => x.partials k - y.partials k⟩
  | .mul =>
      ⟨x.primal * y.primal, fun k => x.primal * y.partials k + x.partials k * y.primal⟩
  | .div =>
      ⟨x.primal / y.primal,
        fun k => (x.partials k * y.primal - x.primal * y.partials k) / y.primal ^ 2⟩

end DualNumber

section

variable {α β : Type*} {γ δ ε : Type*} {n : Nat}

theorem forall₂_ofFn_imp {related : α → γ → Prop} {wanted : α → δ → Prop}
    {items : List α} {first : Fin n → γ} {result : Fin n → δ}
    (holds : List.Forall₂ related items (List.ofFn first))
    (implies : ∀ (k : Fin n) (item : α), related item (first k) →
      wanted item (result k)) :
    List.Forall₂ wanted items (List.ofFn result) := by
  induction n generalizing items with
  | zero =>
      rw [List.ofFn_zero] at holds ⊢
      cases holds
      exact .nil
  | succ n induction =>
      rw [List.ofFn_succ] at holds ⊢
      cases holds with
      | cons one others =>
          exact .cons (implies 0 _ one) (induction others fun k => implies k.succ)

theorem forall₂_zip_ofFn {left : α → γ → Prop} {right : β → δ → Prop}
    {wanted : α × β → ε → Prop} {items : List α} {others : List β}
    {first : Fin n → γ} {second : Fin n → δ} {result : Fin n → ε}
    (holdsLeft : List.Forall₂ left items (List.ofFn first))
    (holdsRight : List.Forall₂ right others (List.ofFn second))
    (implies : ∀ (k : Fin n) (item : α) (other : β),
      left item (first k) → right other (second k) → wanted (item, other) (result k)) :
    List.Forall₂ wanted (items.zip others) (List.ofFn result) := by
  induction n generalizing items others with
  | zero =>
      rw [List.ofFn_zero] at holdsLeft ⊢
      cases holdsLeft
      exact .nil
  | succ n induction =>
      rw [List.ofFn_succ] at holdsLeft holdsRight ⊢
      cases holdsLeft with
      | cons one rest =>
          cases holdsRight with
          | cons two more =>
              rw [List.zip_cons_cons]
              exact .cons (implies 0 _ _ one two)
                (induction rest more fun k => implies k.succ)

theorem forall₂_range_ofFn {related : Nat → γ → Prop} {values : Fin n → γ} {first : Nat}
    (each : ∀ k : Fin n, related (first + k) (values k)) :
    List.Forall₂ related (List.range' first n) (List.ofFn values) := by
  induction n generalizing first with
  | zero => exact .nil
  | succ n induction =>
      rw [List.ofFn_succ, List.range'_succ]
      refine .cons (each 0) (induction fun k => ?_)
      have shifted : first + 1 + k = first + k.succ := by
        rw [Fin.val_succ]
        omega
      rw [shifted]
      exact each k.succ

end

variable {K : Type u} {n : Nat}

/-- What the dual number stands for once the trace has been executed. -/
structure Dual.Denotes (meaning : Interpretation K) (graph : Graph) (dual : Dual)
    (number : DualNumber K n) : Prop where
  primal : dual.primal.Denotes meaning graph number.primal
  partials : List.Forall₂ (Handle.Denotes meaning graph) dual.partials
    (List.ofFn number.partials)

theorem Session.Extends.denotesDual {meaning : Interpretation K}
    {before after : Session} (extended : before.Extends meaning after) {dual : Dual}
    {number : DualNumber K n} (denotes : dual.Denotes meaning before.graph number) :
    dual.Denotes meaning after.graph number where
  primal := extended.denotes denotes.primal
  partials := denotes.partials.imp fun _ _ => extended.denotes

namespace Dual

open Recording

variable {meaning : Interpretation K} {session : Session}

theorem Denotes.dims_eq {graph : Graph} {dual : Dual} {number : DualNumber K n}
    (denotes : dual.Denotes meaning graph number) : dual.dims = n := by
  rw [dims, denotes.partials.length_eq, List.length_ofFn]

theorem Denotes.partialAt {graph : Graph} {dual : Dual} {number : DualNumber K n}
    (denotes : dual.Denotes meaning graph number) (slot : Fin n) :
    ∃ handle, dual.partialAt (slot : Nat) = .ok handle ∧
      handle.Denotes meaning graph (number.partials slot) := by
  have inside : slot.val < dual.partials.length :=
    Nat.lt_of_lt_of_eq slot.isLt denotes.dims_eq.symm
  refine ⟨dual.partials.get ⟨slot, inside⟩, ?_, ?_⟩
  · simp [Dual.partialAt, inside]
  · simpa using denotes.partials.get inside (by simp)

theorem yields_of {primal : Handle} {step : Recording (List Handle)}
    {number : DualNumber K n}
    (denotes : primal.Denotes meaning session.graph number.primal)
    (partials : step.Yields meaning session fun graph handles =>
      List.Forall₂ (Handle.Denotes meaning graph) handles (List.ofFn number.partials)) :
    (of primal <$> step).Yields meaning session fun graph dual =>
      dual.Denotes meaning graph number := by
  refine .map _ (partials.imp fun after handles extended holds => ?_)
  exact ⟨extended.denotes denotes, holds⟩

theorem yields_each {step : Handle → Recording Handle} {handles : List Handle}
    {first result : Fin n → K} (isOpen : session.IsOpen)
    (denote : List.Forall₂ (Handle.Denotes meaning session.graph) handles
      (List.ofFn first))
    (each : ∀ (k : Fin n) (handle : Handle) (middle : Session),
      session.Extends meaning middle → handle.Denotes meaning middle.graph (first k) →
      (step handle).Yields meaning middle fun graph handle =>
        handle.Denotes meaning graph (result k)) :
    (handles.mapM step).Yields meaning session fun graph handles =>
      List.Forall₂ (Handle.Denotes meaning graph) handles (List.ofFn result) := by
  refine .mapM (fun _ _ _ _ extended => extended.denotes) isOpen ?_
  refine forall₂_ofFn_imp denote fun k handle denotes middle extended => ?_
  exact each k handle middle extended (extended.denotes denotes)

theorem yields_pairs {step : Handle × Handle → Recording Handle}
    {lefts rights : List Handle} {first second result : Fin n → K}
    (isOpen : session.IsOpen)
    (denoteLeft : List.Forall₂ (Handle.Denotes meaning session.graph) lefts
      (List.ofFn first))
    (denoteRight : List.Forall₂ (Handle.Denotes meaning session.graph) rights
      (List.ofFn second))
    (each : ∀ (k : Fin n) (left right : Handle) (middle : Session),
      session.Extends meaning middle → left.Denotes meaning middle.graph (first k) →
      right.Denotes meaning middle.graph (second k) →
      (step (left, right)).Yields meaning middle fun graph handle =>
        handle.Denotes meaning graph (result k)) :
    ((lefts.zip rights).mapM step).Yields meaning session fun graph handles =>
      List.Forall₂ (Handle.Denotes meaning graph) handles (List.ofFn result) := by
  refine .mapM (fun _ _ _ _ extended => extended.denotes) isOpen ?_
  refine forall₂_zip_ofFn denoteLeft denoteRight
    fun k left right denotesLeft denotesRight middle extended => ?_
  exact each k left right middle extended (extended.denotes denotesLeft)
    (extended.denotes denotesRight)

theorem yields_unary_eq (operator : UnaryOperator) {handle : Handle} {a b : K}
    (same : meaning.operation operator.kind operator.symbol [a] = b)
    (isOpen : session.IsOpen) (denotes : handle.Denotes meaning session.graph a) :
    (Recording.unary operator handle).Yields meaning session fun graph handle =>
      handle.Denotes meaning graph b := by
  rw [← same]
  exact yields_unary operator isOpen denotes

theorem yields_binary_eq (operator : BinaryOperator) {left right : Handle} {a b c : K}
    (same : meaning.operation operator.kind operator.symbol [a, b] = c)
    (isOpen : session.IsOpen) (denotesLeft : left.Denotes meaning session.graph a)
    (denotesRight : right.Denotes meaning session.graph b) :
    (Recording.binary operator left right).Yields meaning session fun graph handle =>
      handle.Denotes meaning graph c := by
  rw [← same]
  exact yields_binary operator isOpen denotesLeft denotesRight

theorem yields_zipWith (operator : BinaryOperator) {left right : Dual}
    {x y number : DualNumber K n} (isOpen : session.IsOpen)
    (denotesLeft : left.Denotes meaning session.graph x)
    (denotesRight : right.Denotes meaning session.graph y)
    (primal : meaning.operation operator.kind operator.symbol [x.primal, y.primal] =
      number.primal)
    (partials : ∀ k, meaning.operation operator.kind operator.symbol
      [x.partials k, y.partials k] = number.partials k) :
    (zipWith operator left right).Yields meaning session fun graph result =>
      result.Denotes meaning graph number := by
  refine (yields_binary_eq operator primal isOpen denotesLeft.primal
    denotesRight.primal).bind fun middle handle extended denotesPrimal => ?_
  refine yields_of denotesPrimal (yields_pairs extended.isOpen
    (extended.denotesDual denotesLeft).partials
    (extended.denotesDual denotesRight).partials
    fun k first second last further denotesFirst denotesSecond => ?_)
  exact yields_binary_eq operator (partials k) further.isOpen denotesFirst denotesSecond

def consecutive (first count : Nat) : List Handle :=
  (List.range' first count).map fun id : Nat => .bound id

theorem denotes_consecutive {graph : Graph} {first : Nat} {values : Fin n → K}
    (inside : first + n ≤ graph.size)
    (contents : ∀ k : Fin n, meaning.contents graph (first + k : Nat) = values k) :
    List.Forall₂ (Handle.Denotes meaning graph) (consecutive first n)
      (List.ofFn values) := by
  rw [consecutive, List.forall₂_map_left_iff]
  refine forall₂_range_ofFn fun k => ⟨?_, contents k⟩
  have slot := k.isLt
  rw [NodeId.precedes_natCast]
  omega

theorem yields_zeros (isOpen : session.IsOpen) (count : Nat) :
    ((List.replicate count (Handle.literal 0.0)).mapM (Recording.assign .unset)).Yields
      meaning session fun graph handles =>
        handles = consecutive session.graph.size count ∧
          graph.size = session.graph.size + count ∧
          ∀ k : Nat, k < count →
            meaning.contents graph (session.graph.size + k : Nat) =
              meaning.literal 0.0 := by
  induction count generalizing session with
  | zero => exact .pure isOpen ⟨rfl, rfl, by simp⟩
  | succ count induction =>
      rw [List.replicate_succ, List.mapM_cons, assign_unset_literal]
      refine (yields_constant isOpen 0.0).bind ?_
      rintro middle handle extended ⟨rfl, grown, denotes⟩
      refine (induction extended.isOpen).bind ?_
      rintro last handles further ⟨rfl, grownLast, zeros⟩
      rw [grown] at grownLast zeros
      refine .pure further.isOpen ⟨?_, by omega, fun k inside => ?_⟩
      · rw [grown]
        rfl
      · cases k with
        | zero => exact (further.denotes denotes).2
        | succ k =>
            have shifted : session.graph.size + 1 + k = session.graph.size + (k + 1) := by
              omega
            rw [← shifted]
            exact zeros k (by omega)

theorem zeroPartials_of_nat (inRange : n ≤ maximalDims) :
    zeroPartials n =
      (List.replicate n (Handle.literal 0.0)).mapM (Recording.assign .unset) :=
  if_pos ⟨Int.natCast_nonneg n, inRange⟩

theorem yields_constant_layout (value : Float) (isOpen : session.IsOpen)
    (inRange : n ≤ maximalDims) :
    (constant value n).Yields meaning session fun graph result =>
      result = of (.bound session.graph.size) (consecutive (session.graph.size + 1) n) ∧
        graph.size = session.graph.size + 1 + n ∧
        meaning.contents graph session.graph.size = meaning.literal value ∧
        ∀ k : Nat, k < n →
          meaning.contents graph (session.graph.size + 1 + k : Nat) =
            meaning.literal 0.0 := by
  rw [constant, assign_unset_literal, zeroPartials_of_nat inRange]
  refine (yields_constant isOpen value).bind ?_
  rintro middle primal extended ⟨rfl, grown, denotes⟩
  refine .map _ ((yields_zeros extended.isOpen n).imp ?_)
  rintro last handles further ⟨rfl, grownLast, zeros⟩
  rw [grown] at grownLast zeros ⊢
  exact ⟨rfl, grownLast, (further.denotes denotes).2, zeros⟩

variable [Field K]

theorem yields_chain (arithmetic : meaning.IsArithmetic) {primal derivative : Handle}
    {inner : Dual} {partials : Fin n → K} {slope : K} {number : DualNumber K n}
    (isOpen : session.IsOpen)
    (denotes : primal.Denotes meaning session.graph number.primal)
    (denotesSlope : derivative.Denotes meaning session.graph slope)
    (denotesInner : List.Forall₂ (Handle.Denotes meaning session.graph) inner.partials
      (List.ofFn partials))
    (rule : ∀ k, partials k * slope = number.partials k) :
    (chain primal derivative inner).Yields meaning session fun graph dual =>
      dual.Denotes meaning graph number := by
  refine yields_of denotes (yields_each isOpen denotesInner
    fun k slot middle extended denotesSlot => ?_)
  refine yields_binary_eq .mul ?_ extended.isOpen denotesSlot
    (extended.denotes denotesSlope)
  rw [← rule]
  exact arithmetic.mul _ _

theorem UnaryOperation.yields_apply (arithmetic : meaning.IsArithmetic)
    (operation : UnaryOperation) {dual : Dual} {number : DualNumber K n}
    (isOpen : session.IsOpen) (denotes : dual.Denotes meaning session.graph number) :
    (operation.apply dual).Yields meaning session fun graph result =>
      result.Denotes meaning graph (number.unary meaning operation) := by
  cases operation with
  | neg =>
      refine (yields_unary_eq .negate (arithmetic.neg _) isOpen denotes.primal).bind
        fun middle primal extended denotesPrimal => ?_
      refine yields_of denotesPrimal (yields_each extended.isOpen
        (extended.denotesDual denotes).partials fun k slot last further denotesSlot => ?_)
      exact yields_unary_eq .negate (arithmetic.neg _) further.isOpen denotesSlot
  | sin =>
      refine (yields_unary .sin isOpen denotes.primal).bind
        fun middle primal extended denotesPrimal => ?_
      have inner := extended.denotesDual denotes
      refine (yields_unary .cos extended.isOpen inner.primal).bind
        fun last derivative further denotesSlope => ?_
      exact yields_chain arithmetic further.isOpen (further.denotes denotesPrimal)
        denotesSlope (further.denotesDual inner).partials fun k => mul_comm _ _
  | cos =>
      refine (yields_unary .cos isOpen denotes.primal).bind
        fun middle primal extended denotesPrimal => ?_
      have inner := extended.denotesDual denotes
      refine (yields_unary .sin extended.isOpen inner.primal).bind
        fun later sine further denotesSine => ?_
      refine (yields_unary_eq .negate (arithmetic.neg _) further.isOpen denotesSine).bind
        fun last derivative furthest denotesSlope => ?_
      have beyond := further.trans furthest
      exact yields_chain arithmetic furthest.isOpen (beyond.denotes denotesPrimal)
        denotesSlope (beyond.denotesDual inner).partials fun k => mul_comm _ _
  | sqrt =>
      refine (yields_unary .sqrt isOpen denotes.primal).bind
        fun middle primal extended denotesPrimal => ?_
      refine (yields_binary_eq .mul (arithmetic.mul _ _) extended.isOpen
        arithmetic.denotes_two
        denotesPrimal).bind fun later twice further denotesTwice => ?_
      refine (yields_binary_eq .div (arithmetic.div _ _) further.isOpen
        arithmetic.denotes_one
        denotesTwice).bind fun last derivative furthest denotesSlope => ?_
      have beyond := further.trans furthest
      exact yields_chain arithmetic furthest.isOpen (beyond.denotes denotesPrimal)
        denotesSlope ((extended.trans beyond).denotesDual denotes).partials
        fun k => mul_one_div _ _
  | exp =>
      refine (yields_unary .exp isOpen denotes.primal).bind
        fun middle primal extended denotesPrimal => ?_
      exact yields_chain arithmetic extended.isOpen denotesPrimal denotesPrimal
        (extended.denotesDual denotes).partials fun k => mul_comm _ _
  | log =>
      refine (yields_unary .log isOpen denotes.primal).bind
        fun middle primal extended denotesPrimal => ?_
      have inner := extended.denotesDual denotes
      refine (yields_binary_eq .div (arithmetic.div _ _) extended.isOpen
        arithmetic.denotes_one
        inner.primal).bind fun last derivative further denotesSlope => ?_
      exact yields_chain arithmetic further.isOpen (further.denotes denotesPrimal)
        denotesSlope (further.denotesDual inner).partials fun k => mul_one_div _ _

theorem demandEqualDims_of_eq (operation : String) {left right : Dual}
    (same : left.dims = right.dims) : demandEqualDims operation left right = pure () :=
  if_pos same

theorem yields_mul (arithmetic : meaning.IsArithmetic) {left right : Dual}
    {x y : DualNumber K n} (isOpen : session.IsOpen)
    (denotesLeft : left.Denotes meaning session.graph x)
    (denotesRight : right.Denotes meaning session.graph y) :
    (left.mul right).Yields meaning session fun graph result =>
      result.Denotes meaning graph (x.binary y .mul) := by
  unfold mul
  rw [demandEqualDims_of_eq _ (denotesLeft.dims_eq.trans denotesRight.dims_eq.symm),
    pure_bind]
  refine (yields_binary_eq .mul (arithmetic.mul _ _) isOpen denotesLeft.primal
    denotesRight.primal).bind fun middle primal extended denotesPrimal => ?_
  have leftThen := extended.denotesDual denotesLeft
  have rightThen := extended.denotesDual denotesRight
  refine yields_of denotesPrimal (yields_pairs extended.isOpen leftThen.partials
    rightThen.partials fun k first second slot reached denotesFirst denotesSecond => ?_)
  refine (yields_binary_eq .mul (arithmetic.mul _ _) reached.isOpen
    (reached.denotes leftThen.primal) denotesSecond).bind
    fun later outer further denotesOuter => ?_
  refine (yields_binary_eq .mul (arithmetic.mul _ _) further.isOpen
    (further.denotes denotesFirst)
    ((reached.trans further).denotes rightThen.primal)).bind
    fun last inner furthest denotesInner => ?_
  exact yields_binary_eq .add (arithmetic.add _ _) furthest.isOpen
    (furthest.denotes denotesOuter) denotesInner

theorem yields_div (arithmetic : meaning.IsArithmetic) {left right : Dual}
    {x y : DualNumber K n} (isOpen : session.IsOpen)
    (denotesLeft : left.Denotes meaning session.graph x)
    (denotesRight : right.Denotes meaning session.graph y) (nonzero : y.primal ≠ 0) :
    (left.div right).Yields meaning session fun graph result =>
      result.Denotes meaning graph (x.binary y .div) := by
  unfold div
  rw [demandEqualDims_of_eq _ (denotesLeft.dims_eq.trans denotesRight.dims_eq.symm),
    pure_bind]
  refine (yields_binary_eq .div (arithmetic.div _ _) isOpen arithmetic.denotes_one
    denotesRight.primal).bind fun middle inverse extended denotesInverse => ?_
  have quotient : meaning.operation .binary "*" [x.primal, 1 / y.primal] =
      (x.binary y .div).primal :=
    (arithmetic.mul _ _).trans (mul_one_div _ _)
  refine (yields_binary_eq .mul quotient extended.isOpen
    (extended.denotes denotesLeft.primal) denotesInverse).bind
    fun later primal further denotesPrimal => ?_
  have reached := extended.trans further
  refine yields_of denotesPrimal (yields_pairs further.isOpen
    (reached.denotesDual denotesLeft).partials
    (reached.denotesDual denotesRight).partials
    fun k first second slot inside denotesFirst denotesSecond => ?_)
  refine (yields_binary_eq .mul (arithmetic.mul _ _) inside.isOpen
    (inside.denotes denotesPrimal) denotesSecond).bind
    fun next product onward denotesProduct => ?_
  refine (yields_binary_eq .sub (arithmetic.sub _ _) onward.isOpen
    (onward.denotes denotesFirst) denotesProduct).bind
    fun last difference final denotesDifference => ?_
  refine yields_binary_eq .mul ?_ final.isOpen denotesDifference
    (((further.trans inside).trans (onward.trans final)).denotes denotesInverse)
  -- The trace divides twice instead of squaring, which is the same where `b ≠ 0`.
  refine (arithmetic.mul _ _).trans ?_
  show (x.partials k - x.primal / y.primal * y.partials k) * (1 / y.primal) =
    (x.partials k * y.primal - x.primal * y.partials k) / y.primal ^ 2
  field_simp

theorem BinaryOperation.yields_apply (arithmetic : meaning.IsArithmetic)
    (operation : BinaryOperation) {left right : Dual} {x y : DualNumber K n}
    (isOpen : session.IsOpen) (denotesLeft : left.Denotes meaning session.graph x)
    (denotesRight : right.Denotes meaning session.graph y)
    (regular : operation = .div → y.primal ≠ 0) :
    (operation.apply left right).Yields meaning session fun graph result =>
      result.Denotes meaning graph (x.binary y operation) := by
  have same := denotesLeft.dims_eq.trans denotesRight.dims_eq.symm
  cases operation with
  | add =>
      simp only [apply, Dual.add, demandEqualDims_of_eq _ same, pure_bind]
      exact yields_zipWith .add isOpen denotesLeft denotesRight (arithmetic.add _ _)
        fun k => arithmetic.add _ _
  | sub =>
      simp only [apply, Dual.sub, demandEqualDims_of_eq _ same, pure_bind]
      exact yields_zipWith .sub isOpen denotesLeft denotesRight (arithmetic.sub _ _)
        fun k => arithmetic.sub _ _
  | mul => exact yields_mul arithmetic isOpen denotesLeft denotesRight
  | div => exact yields_div arithmetic isOpen denotesLeft denotesRight (regular rfl)

theorem yields_scale (arithmetic : meaning.IsArithmetic) {dual : Dual} {factor : Handle}
    {number : DualNumber K n} {a : K} (isOpen : session.IsOpen)
    (denotes : dual.Denotes meaning session.graph number)
    (denotesFactor : factor.Denotes meaning session.graph a) :
    (dual.scale factor).Yields meaning session fun graph result =>
      result.Denotes meaning graph (number.scale a) := by
  refine (yields_binary_eq .mul (arithmetic.mul _ _) isOpen denotes.primal
    denotesFactor).bind fun middle primal extended denotesPrimal => ?_
  refine yields_of denotesPrimal (yields_each extended.isOpen
    (extended.denotesDual denotes).partials fun k slot last further denotesSlot => ?_)
  exact yields_binary_eq .mul (arithmetic.mul _ _) further.isOpen denotesSlot
    ((extended.trans further).denotes denotesFactor)

theorem yields_addScalar (arithmetic : meaning.IsArithmetic) {dual : Dual}
    {scalar : Handle} {number : DualNumber K n} {a : K} (isOpen : session.IsOpen)
    (denotes : dual.Denotes meaning session.graph number)
    (denotesScalar : scalar.Denotes meaning session.graph a) :
    (dual.addScalar scalar).Yields meaning session fun graph result =>
      result.Denotes meaning graph (number.addScalar a) := by
  refine (yields_binary_eq .add (arithmetic.add _ _) isOpen denotes.primal
    denotesScalar).bind fun middle primal extended denotesPrimal => ?_
  refine .pure extended.isOpen ⟨denotesPrimal, ?_⟩
  -- An empty list of partials is kept as an open one, which reads the same.
  have kept :
      partials ⟨primal, if dual.partials.isEmpty then none else some dual.partials⟩ =
      dual.partials := by
    cases slots : dual.partials <;> rfl
  rw [kept]
  exact (extended.denotesDual denotes).partials

theorem yields_ofHandle (arithmetic : meaning.IsArithmetic) {primal : Handle} {a : K}
    (isOpen : session.IsOpen) (inRange : n ≤ maximalDims)
    (denotes : primal.Denotes meaning session.graph a) :
    (ofHandle primal n).Yields meaning session fun graph result =>
      result.Denotes meaning graph (.constant a : DualNumber K n) := by
  rw [ofHandle, zeroPartials_of_nat inRange]
  refine yields_of denotes ((yields_zeros isOpen n).imp ?_)
  rintro after handles - ⟨rfl, grown, zeros⟩
  refine denotes_consecutive grown.ge fun k => ?_
  rw [zeros k k.isLt, arithmetic.zero]
  rfl

theorem yields_constant (arithmetic : meaning.IsArithmetic) (value : Float)
    (isOpen : session.IsOpen) (inRange : n ≤ maximalDims) :
    (constant value n).Yields meaning session fun graph result =>
      result.Denotes meaning graph
        (.constant (meaning.literal value) : DualNumber K n) := by
  refine (yields_constant_layout value isOpen inRange).imp ?_
  rintro after result - ⟨rfl, grown, primal, zeros⟩
  refine ⟨⟨?_, primal⟩, denotes_consecutive grown.ge fun k => ?_⟩
  · rw [NodeId.precedes_natCast]
    omega
  · rw [zeros k k.isLt, arithmetic.zero]
    rfl

theorem runOn_seed {dual : Dual} {slot : Nat} {target : NodeId} {after : Session}
    (found : dual.partials[slot]? = some (.bound target))
    (assigned : (Recording.assign (.bound target) (.literal 1.0)).runOn session =
      (.ok (.bound target), after)) :
    (dual.seed slot).runOn session = (.ok (of dual.primal dual.partials), after) := by
  unfold seed
  rw [found]
  simp only
  rw [runOn_bind_of_ok assigned, runOn_pure]
  obtain ⟨inside, same⟩ := List.getElem?_eq_some_iff.mp found
  rw [← same, List.set_getElem_self]

theorem yields_seeded (arithmetic : meaning.IsArithmetic) (value : Float) (slot : Fin n)
    (isOpen : session.IsOpen) (inRange : n ≤ maximalDims) :
    (seeded value (slot : Nat) n).Yields meaning session fun graph result =>
      result.Denotes meaning graph
        (.seeded (meaning.literal value) slot : DualNumber K n) := by
  obtain ⟨dual, middle, ran, extended, rfl, grown, primal, zeros⟩ :=
    yields_constant_layout value isOpen inRange
  have inside := slot.isLt
  have found : (consecutive (session.graph.size + 1) n)[slot.val]? =
      some (.bound (session.graph.size + 1 + slot : Nat)) := by
    simp [consecutive]
  -- The slot overwritten is one of those just recorded, so nothing older changes.
  obtain ⟨after, assigned, overwrites⟩ :=
    overwrites_assign extended.isOpen arithmetic.denotes_one
      (NodeId.precedes_natCast.mpr
        (show session.graph.size + 1 + slot < middle.graph.size by omega))
  have unseeded : ∀ place : Nat, place < middle.graph.size →
      place ≠ session.graph.size + 1 + slot →
      meaning.contents after.graph place = meaning.contents middle.graph place := by
    intro place old other
    exact overwrites.contents_eq place (NodeId.precedes_natCast.mpr old)
      fun same => other (Int.ofNat_inj.mp same)
  refine ⟨of (.bound session.graph.size) (consecutive (session.graph.size + 1) n), after,
    ?_, extended.overwrite overwrites ?_, ⟨?_, ?_⟩, denotes_consecutive ?_ fun k => ?_⟩
  · unfold seeded
    rw [if_neg (by omega), runOn_bind_of_ok ran, Int.toNat_natCast]
    exact runOn_seed found assigned
  · rw [← Bool.not_eq_true, NodeId.precedes_natCast]
    omega
  · have later := overwrites.size_le
    exact NodeId.precedes_natCast.mpr (by omega)
  · rw [unseeded _ (by omega) (by omega)]
    exact primal
  · have later := overwrites.size_le
    omega
  · by_cases here : k = slot
    · subst here
      rw [overwrites.target_eq]
      simp [DualNumber.seeded]
    · have apart : (k : Nat) ≠ slot := fun same => here (Fin.ext same)
      rw [unseeded _ (by omega) (by omega), zeros k k.isLt, arithmetic.zero]
      simp [DualNumber.seeded, here]

end Dual

end CostTape
