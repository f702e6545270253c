import CostTape.Proofs.Recording.Calculation
import CostTape.Proofs.Script.CallTree

/-! Expressions of scalars and dual numbers: what is recorded for a dual number has the
primal that the scalars alone have. -/

namespace CostTape

universe u

/-- Products and quotients are those of a field; a quotient by zero may be anything, and
so may all else. -/
structure Interpretation.HasQuotients {K : Type u} [Field K]
    (meaning : Interpretation K) : Prop where
  one : meaning.literal 1.0 = 1
  mul : ∀ a b : K, meaning.operation .binary "*" [a, b] = a * b
  div : ∀ a b : K, b ≠ 0 → meaning.operation .binary "/" [a, b] = a / b

theorem Interpretation.IsArithmetic.hasQuotients {K : Type u} [Field K]
    {meaning : Interpretation K} (arithmetic : meaning.IsArithmetic) :
    meaning.HasQuotients :=
  ⟨arithmetic.one, arithmetic.mul, fun a b _ => arithmetic.div a b⟩

namespace Script

/-- What an expression is made of: numbers and parameters as they are written. -/
inductive Leaf where
  | int (value : Int64)
  | float (value : Float) (scientific : Bool)
  | param (name : String) (raw : Bool)

/-- Expressions in which every dual number is made with `n` partials, seeded in one. -/
inductive Expression (n : Nat) where
  | leaf (given : Leaf)
  | dual (given : Leaf) (seed : Fin n)
  | unary (operation : Dual.UnaryOperation) (argument : Expression n)
  | binary (operation : Dual.BinaryOperation) (left right : Expression n)

namespace Leaf

variable {V : Type u}

def tree : Leaf → CallTree
  | int value => .literal (.int value)
  | float value scientific => .literal (.float value scientific)
  | param name raw => .call .param [.literal (.text name raw)]

def value (meaning : Interpretation V) : Leaf → V
  | int value => meaning.literal value.toFloat
  | float value _ => meaning.literal value
  | param name _ => meaning.input name

end Leaf

namespace Expression

variable {n : Nat} {V : Type u}

/-- The text that a keyword is read as. -/
def keyword (name : String) : CallTree :=
  .literal (.text (Spelling.keywordMark ++ name) false)

def tree : Expression n → CallTree
  | leaf given => given.tree
  | dual given seed =>
      .call .dual [given.tree, keyword "seed", .literal (.int (.ofNat seed)),
        keyword "dims", .literal (.int (.ofNat n))]
  | unary operation argument => .call (.unary operation.operator) [argument.tree]
  | binary operation left right =>
      .call (.binary operation.operator) [left.tree, right.tree]

def hasDual : Expression n → Bool
  | leaf _ => false
  | dual _ _ => true
  | unary _ argument => argument.hasDual
  | binary _ left right => left.hasDual || right.hasDual

/-- The expression with plain scalars in place of the dual numbers. -/
def plain : Expression n → Expression n
  | leaf given => leaf given
  | dual given _ => leaf given
  | unary operation argument => unary operation argument.plain
  | binary operation left right => binary operation left.plain right.plain

/-- The value of the expression on scalars. -/
def value (meaning : Interpretation V) : Expression n → V
  | leaf given => given.value meaning
  | dual given _ => given.value meaning
  | unary operation argument =>
      meaning.operation operation.operator.kind operation.operator.symbol
        [argument.value meaning]
  | binary operation left right =>
      meaning.operation operation.operator.kind operation.operator.symbol
        [left.value meaning, right.value meaning]

/-- No divisor of the expression has the value zero. -/
def IsRegular {K : Type u} [Field K] (meaning : Interpretation K) : Expression n → Prop
  | leaf _ => True
  | dual _ _ => True
  | unary _ argument => argument.IsRegular meaning
  | binary operation left right =>
      left.IsRegular meaning ∧ right.IsRegular meaning ∧
        (operation = .div → right.value meaning ≠ 0)

/-- What the trace of the expression computes for its primal, step by step: where dual
numbers are involved a quotient is the product with a reciprocal. -/
def traced (meaning : Interpretation V) : Expression n → V
  | leaf given => given.value meaning
  | dual given _ => given.value meaning
  | unary operation argument =>
      meaning.operation operation.operator.kind operation.operator.symbol
        [argument.traced meaning]
  | binary operation left right =>
      if left.hasDual || right.hasDual then
        operation.onPrimals meaning (left.traced meaning) (right.traced meaning)
      else
        meaning.operation operation.operator.kind operation.operator.symbol
          [left.traced meaning, right.traced meaning]

@[simp] theorem hasDual_plain (expression : Expression n) :
    expression.plain.hasDual = false := by
  induction expression with
  | leaf given => rfl
  | dual given seed => rfl
  | unary operation argument induction => exact induction
  | binary operation left right inductionLeft inductionRight =>
      simp [plain, hasDual, inductionLeft, inductionRight]

theorem traced_plain (meaning : Interpretation V) (expression : Expression n) :
    expression.plain.traced meaning = expression.value meaning := by
  induction expression with
  | leaf given => rfl
  | dual given seed => rfl
  | unary operation argument induction => simp only [plain, traced, value, induction]
  | binary operation left right inductionLeft inductionRight =>
      simp [plain, traced, value, inductionLeft, inductionRight]

theorem traced_eq_value {K : Type u} [Field K] {meaning : Interpretation K}
    (quotients : meaning.HasQuotients) {expression : Expression n}
    (regular : expression.IsRegular meaning) :
    expression.traced meaning = expression.value meaning := by
  induction expression with
  | leaf given => rfl
  | dual given seed => rfl
  | unary operation argument induction => simp only [traced, value, induction regular]
  | binary operation left right inductionLeft inductionRight =>
      obtain ⟨regularLeft, regularRight, nonzero⟩ := regular
      rw [traced, value, inductionLeft regularLeft, inductionRight regularRight]
      split
      · cases operation with
        | div =>
            have divisor := nonzero rfl
            show meaning.operation .binary "*" [_, meaning.operation .binary "/" [_, _]] =
              meaning.operation .binary "/" [_, _]
            rw [quotients.mul, quotients.div _ _ divisor, quotients.div _ _ divisor,
              quotients.one, mul_one_div]
        | _ => rfl
      · rfl

end Expression

/-- A number or a recorded scalar or, if the flag says so, a dual number with `n`
partials, which stands for the value. -/
inductive Value.Holds {V : Type u} (meaning : Interpretation V) (n : Nat)
    (graph : Graph) : Bool → V → Value → Prop
  | number {literal : Literal} {number : Float}
      (reads : (Value.literal literal).number? = some number) :
      Holds meaning n graph false (meaning.literal number) (.literal literal)
  | scalar {handle : Handle} {a : V} (stores : handle.Stores meaning graph a) :
      Holds meaning n graph false a (.handle handle)
  | dual {number : Dual} {a : V} (carries : number.Carries meaning graph n a) :
      Holds meaning n graph true a (.dual number)

namespace Value.Holds

variable {V : Type u} {meaning : Interpretation V} {n : Nat} {graph : Graph} {a : V}
  {value : Value} {isDual : Bool}

theorem extend {before after : Session} (extended : before.Extends meaning after)
    (holds : Holds meaning n before.graph isDual a value) :
    Holds meaning n after.graph isDual a value := by
  cases holds with
  | number reads => exact .number reads
  | scalar stores => exact .scalar (extended.stores stores)
  | dual carries => exact .dual (extended.carries carries)

theorem exists_scalar (holds : Holds meaning n graph false a value) :
    value.dual? = none ∧ ∃ handle, value.scalar? = some handle ∧
      handle.Denotes meaning graph a := by
  cases holds with
  | @number literal number reads =>
      refine ⟨rfl, .literal number, ?_, Handle.denotes_literal number⟩
      simp only [scalar?, reads, Option.map_some]
  | @scalar handle a stores => exact ⟨rfl, handle, rfl, stores.denotes⟩

theorem text?_eq_none (holds : Holds meaning n graph false a value) :
    value.text? = none := by
  cases holds with
  | @number literal number reads =>
      cases literal with
      | text body raw => cases reads
      | _ => rfl
  | scalar stores => rfl

theorem exists_dual (holds : Holds meaning n graph true a value) :
    ∃ number, value = .dual number ∧ number.Carries meaning graph n a := by
  cases holds with
  | dual carries => exact ⟨_, rfl, carries⟩

end Value.Holds

namespace Builtin

variable {V : Type u} {meaning : Interpretation V} {n : Nat} {session : Session} {a b : V}

open RecordingCall Value

theorem yields_apply_unary (operation : Dual.UnaryOperation) (name : String)
    {value : Value} {isDual : Bool} (isOpen : session.IsOpen)
    (holds : Holds meaning n session.graph isDual a value) :
    (applyUnary operation.operator name [value]).Yields meaning session
      fun graph => Holds meaning n graph isDual
        (meaning.operation operation.operator.kind operation.operator.symbol [a]) := by
  cases isDual with
  | true =>
      obtain ⟨number, rfl, carries⟩ := holds.exists_dual
      simp only [applyUnary, dual?, Dual.unary?_operator]
      exact yields_map_perform _ name
        ((Dual.yields_unary_carried operation isOpen carries).imp
        fun _ _ _ carries => .dual carries)
  | false =>
      obtain ⟨plain, handle, found, denotes⟩ := holds.exists_scalar
      simp only [applyUnary, plain, scalar, found, demand, pure_bind]
      exact yields_map_perform _ name
        ((Recording.yields_unary_stored _ isOpen denotes).imp
        fun _ _ _ stores => .scalar stores)

theorem yields_liftDuals {left right : Value} {isLeft isRight : Bool} (name : String)
    (isOpen : session.IsOpen) (holdsLeft : Holds meaning n session.graph isLeft a left)
    (holdsRight : Holds meaning n session.graph isRight b right)
    (lifts : (isLeft || isRight) = true) :
    (liftDuals name left right).Yields meaning session (LiftedTo meaning n a b) := by
  cases isLeft with
  | false =>
      cases isRight with
      | false => cases lifts
      | true =>
          obtain ⟨plain, handle, found, denotes⟩ := holdsLeft.exists_scalar
          obtain ⟨second, rfl, carries⟩ := holdsRight.exists_dual
          exact yields_liftDuals_left name isOpen plain rfl found denotes carries
  | true =>
      obtain ⟨first, rfl, carries⟩ := holdsLeft.exists_dual
      cases isRight with
      | false =>
          obtain ⟨plain, handle, found, denotes⟩ := holdsRight.exists_scalar
          exact yields_liftDuals_right name isOpen rfl plain found carries denotes
      | true =>
          obtain ⟨second, rfl, carriesRight⟩ := holdsRight.exists_dual
          exact yields_checked name isOpen carries carriesRight

theorem yields_apply_binary (operation : Dual.BinaryOperation) (name : String)
    {left right : Value} {isLeft isRight : Bool} (isOpen : session.IsOpen)
    (holdsLeft : Holds meaning n session.graph isLeft a left)
    (holdsRight : Holds meaning n session.graph isRight b right) :
    (applyBinary operation.operator name [left, right]).Yields meaning session
      fun graph => Holds meaning n graph (isLeft || isRight)
        (if isLeft || isRight then operation.onPrimals meaning a b
        else meaning.operation operation.operator.kind operation.operator.symbol
            [a, b]) := by
  simp only [applyBinary, Dual.binary?_operator]
  cases lifts : isLeft || isRight with
  | true =>
      refine (yields_liftDuals name isOpen holdsLeft holdsRight lifts).bind ?_
      rintro middle _ extended ⟨first, second, rfl, carriesLeft, carriesRight⟩
      exact yields_map_perform _ name
        ((Dual.yields_binary_carried operation extended.isOpen
        carriesLeft carriesRight).imp fun _ _ _ carries => .dual carries)
  | false =>
      obtain ⟨rfl, rfl⟩ := Bool.or_eq_false_iff.mp lifts
      obtain ⟨plainLeft, first, foundLeft, denotesLeft⟩ := holdsLeft.exists_scalar
      obtain ⟨plainRight, second, foundRight, denotesRight⟩ := holdsRight.exists_scalar
      simp only [liftDuals, plainLeft, plainRight, pure_bind, scalar, foundLeft,
        foundRight, demand]
      exact yields_map_perform _ name
        ((Recording.yields_binary_stored _ isOpen denotesLeft
        denotesRight).imp fun _ _ _ stores => .scalar stores)

theorem yields_makeDual (name : String) {value : Value} (seed : Fin n)
    (isOpen : session.IsOpen) (n_le : n ≤ Dual.maximalDims)
    (holds : Holds meaning n session.graph false a value) :
    (makeDual name value n (some seed)).Yields meaning session
      fun graph => Holds meaning n graph true a := by
  cases holds with
  | @number literal number reads =>
      simp only [makeDual, RecordingCall.number, reads, demand, pure_bind]
      exact yields_map_perform _ name ((Dual.yields_seeded_carried number isOpen seed.isLt
        n_le).imp fun _ _ _ carries => .dual carries)
  | @scalar handle a stores =>
      refine yields_map_perform _ name ((Dual.yields_seed_carried
        (Dual.yields_ofHandle_carried isOpen stores n_le) ?_).imp
          fun _ _ _ carries => .dual carries)
      exact seed.isLt

theorem int?_ofNat {k : Nat} (k_le : k ≤ Dual.maximalDims) :
    (Value.int (.ofNat k)).int? = some (k : Int) := by
  have small : k < 2 ^ 63 := by
    unfold Dual.maximalDims at k_le
    omega
  exact congrArg some (Int64.toInt_ofNat_of_lt small)

theorem ofList_seeded {value : Value} (seed dims : Value)
    (wordless : value.text? = none) :
    Arguments.ofList [value, .text (Spelling.keywordMark ++ "seed"), seed,
      .text (Spelling.keywordMark ++ "dims"), dims] =
      ⟨[value], [("seed", seed), ("dims", dims)]⟩ := by
  have word (name : String) : (Value.text name).text? = some name := rfl
  have seedName : Spelling.keywordName? (Spelling.keywordMark ++ "seed") =
      some "seed" := by
    decide
  have dimsName : Spelling.keywordName? (Spelling.keywordMark ++ "dims") =
      some "dims" := by
    decide
  simp [Arguments.ofList, wordless, word, seedName, dimsName, Names.find?]

theorem applyDual_seeded (name : String) {value : Value} (seed : Fin n)
    (n_le : n ≤ Dual.maximalDims) (wordless : value.text? = none) :
    applyDual name [value, .text (Spelling.keywordMark ++ "seed"), .int (.ofNat seed),
      .text (Spelling.keywordMark ++ "dims"), .int (.ofNat n)] =
      makeDual name value n (some seed) := by
  have seed_le : (seed : Nat) ≤ Dual.maximalDims := by
    have below := seed.isLt
    omega
  have dims : dualDims [("seed", .int (.ofNat seed)), ("dims", .int (.ofNat n))] =
      pure (n : Int) := by
    simp [dualDims, Names.find?_cons, integer, int?_ofNat n_le, demand]
  have seeded : dualSeed [("seed", .int (.ofNat seed)), ("dims", .int (.ofNat n))] n =
      pure (some (seed : Int)) := by
    simp [dualSeed, Names.find?_cons, integer, int?_ofNat seed_le, demand]
  simp only [applyDual, ofList_seeded _ _ wordless, dims, seeded, pure_bind]

end Builtin

namespace CallTree

theorem evaluate_unary (function : Builtin) (tree : CallTree) :
    (call function [tree]).evaluate =
      tree.evaluate >>= fun value => function.apply function.name [value] := by
  simp [evaluate, evaluateAll]

theorem evaluate_binary (function : Builtin) (left right : CallTree) :
    (call function [left, right]).evaluate = (do
      let first ← left.evaluate
      let second ← right.evaluate
      function.apply function.name [first, second]) := by
  simp [evaluate, evaluateAll]

end CallTree

section

variable {V : Type u} {meaning : Interpretation V} {n : Nat} {session : Session}

open Value RecordingCall

theorem Leaf.yields_evaluate (leaf : Leaf) (n : Nat) (isOpen : session.IsOpen) :
    leaf.tree.evaluate.Yields meaning session
      fun graph => Holds meaning n graph false (leaf.value meaning) := by
  cases leaf with
  | int value => exact .pure isOpen (.number rfl)
  | float value scientific => exact .pure isOpen (.number rfl)
  | param name raw =>
      rw [tree, CallTree.evaluate_unary, CallTree.evaluate, pure_bind]
      exact yields_map_perform _ _ ((Recording.yields_parameter_stored name isOpen).imp
        fun _ _ _ stores => .scalar stores)

namespace Expression

theorem yields_evaluate_dual (given : Leaf) (seed : Fin n) (isOpen : session.IsOpen)
    (n_le : n ≤ Dual.maximalDims) :
    (dual given seed).tree.evaluate.Yields meaning session
      fun graph => Holds meaning n graph true (given.value meaning) := by
  have unfolded : (dual given seed).tree.evaluate =
      given.tree.evaluate >>= fun value => Builtin.applyDual "dual"
        [value, .text (Spelling.keywordMark ++ "seed"), .int (.ofNat seed),
          .text (Spelling.keywordMark ++ "dims"), .int (.ofNat n)] := by
    simp only [tree, keyword, CallTree.evaluate, CallTree.evaluateAll, bind_assoc,
      pure_bind]
    rfl
  rw [unfolded]
  refine (given.yields_evaluate n isOpen).bind fun middle value extended holds => ?_
  rw [Builtin.applyDual_seeded _ seed n_le holds.text?_eq_none]
  exact Builtin.yields_makeDual _ seed extended.isOpen n_le holds

theorem yields_evaluate (meaning : Interpretation V) (expression : Expression n)
    (isOpen : session.IsOpen) (n_le : n ≤ Dual.maximalDims) :
    expression.tree.evaluate.Yields meaning session
      fun graph => Holds meaning n graph expression.hasDual
        (expression.traced meaning) := by
  induction expression generalizing session with
  | leaf given => exact given.yields_evaluate n isOpen
  | dual given seed => exact yields_evaluate_dual given seed isOpen n_le
  | unary operation argument induction =>
      rw [tree, CallTree.evaluate_unary]
      refine (induction isOpen).bind fun middle value extended holds => ?_
      exact Builtin.yields_apply_unary operation _ extended.isOpen holds
  | binary operation left right inductionLeft inductionRight =>
      rw [tree, CallTree.evaluate_binary]
      refine (inductionLeft isOpen).bind fun middle first extended holdsLeft => ?_
      refine (inductionRight extended.isOpen).bind fun last second further holdsRight =>
        ?_
      exact Builtin.yields_apply_binary operation _ further.isOpen
        (holdsLeft.extend further) holdsRight

/-- The value does not depend on the interpretation, but is right under every one. -/
theorem exists_evaluates (expression : Expression n) (label : String)
    (n_le : n ≤ Dual.maximalDims) :
    ∃ value after, Evaluates [expression.tree.datum] (.fresh label) value after ∧
      Holds .indifferent n after.graph expression.hasDual () value ∧
      ∀ {V : Type u} (meaning : Interpretation V),
        Holds meaning n after.graph expression.hasDual (expression.traced meaning)
          value := by
  have isOpen : (Session.fresh label).IsOpen := ⟨rfl, rfl⟩
  obtain ⟨value, after, ran, -, unread⟩ :=
    yields_evaluate Interpretation.indifferent expression isOpen n_le
  refine ⟨value, after, CallTree.evaluates_datum isOpen ran, unread, fun meaning => ?_⟩
  obtain ⟨_, _, same, -, holds⟩ := yields_evaluate meaning expression isOpen n_le
  rw [ran] at same
  cases same
  exact holds

/-- An expression of scalars and dual numbers evaluates to a dual number with as many
partials as they all have, if so many can be allocated.  Under every interpretation in a
field its primal has the value that the expression has on scalars alone, which is what the
trace of the plain expression computes, as long as no divisor is zero. -/
theorem dual_primal_is_plain_value (expression : Expression n) (label : String)
    (mixed : expression.hasDual = true) (n_le : n ≤ Dual.maximalDims) :
    ∃ number after value plainAfter handle,
      Evaluates [expression.tree.datum] (.fresh label) (.dual number) after ∧
      number.dims = n ∧
      Evaluates [expression.plain.tree.datum] (.fresh label) value plainAfter ∧
      value.scalar? = some handle ∧
      ∀ {K : Type u} [Field K] (meaning : Interpretation K), meaning.HasQuotients →
        expression.IsRegular meaning →
        number.primal.Denotes meaning after.graph (expression.value meaning) ∧
          handle.Denotes meaning plainAfter.graph (expression.value meaning) := by
  obtain ⟨value, after, evaluates, unread, holds⟩ :=
    expression.exists_evaluates label n_le
  obtain ⟨plainValue, plainAfter, plainEvaluates, plainUnread, plainHolds⟩ :=
    expression.plain.exists_evaluates label n_le
  simp only [mixed, hasDual_plain, traced_plain] at unread holds plainUnread plainHolds
  obtain ⟨number, rfl, carries⟩ := unread.exists_dual
  obtain ⟨-, handle, found, -⟩ := plainUnread.exists_scalar
  refine ⟨number, after, plainValue, plainAfter, handle, evaluates, carries.dims_eq,
    plainEvaluates, found, fun meaning quotients regular => ⟨?_, ?_⟩⟩
  · obtain ⟨_, same, carries⟩ := (holds meaning).exists_dual
    cases same
    rw [← traced_eq_value quotients regular]
    exact carries.primal
  · obtain ⟨-, _, same, denotes⟩ := (plainHolds meaning).exists_scalar
    rw [found] at same
    cases same
    exact denotes

/-- A sum of a dual number and a number, divided by a parameter as a dual number. -/
def ratio : Expression 2 :=
  binary .div (binary .add (dual (.int 2) 0) (leaf (.int 3))) (dual (.param "y" false) 1)

/-- Rational arithmetic in which every parameter is one. -/
def unitary : Interpretation ℚ :=
  { Workbench.rational with input := fun _ => 1 }

theorem ratio_is_plain_value :
    Program.read (Spelling.respell
        "(div (add (dual 2 :seed 0 :dims 2) 3) (dual (param \"y\") :seed 1 :dims 2))") =
      .ok [ratio.tree.datum] ∧
    ratio.hasDual = true ∧ (2 : Nat) ≤ Dual.maximalDims ∧ unitary.HasQuotients ∧
    ratio.IsRegular unitary ∧
    ∃ number after value plainAfter handle,
      Evaluates [ratio.tree.datum] (.fresh "ratio") (.dual number) after ∧
      number.dims = 2 ∧
      Evaluates [ratio.plain.tree.datum] (.fresh "ratio") value plainAfter ∧
      value.scalar? = some handle ∧
      number.primal.Denotes unitary after.graph (ratio.value unitary) ∧
      handle.Denotes unitary plainAfter.graph (ratio.value unitary) := by
  have arithmetic := Workbench.isArithmetic_rational.hasQuotients
  have quotients : unitary.HasQuotients :=
    ⟨arithmetic.one, arithmetic.mul, arithmetic.div⟩
  have regular : ratio.IsRegular unitary :=
    ⟨⟨trivial, trivial, fun never => nomatch never⟩, trivial, fun _ => one_ne_zero⟩
  obtain ⟨number, after, value, plainAfter, handle, evaluates, dims_eq, plainEvaluates,
    found, same⟩ := dual_primal_is_plain_value ratio "ratio" rfl (by decide)
  exact ⟨rfl, rfl, by decide, quotients, regular, number, after, value, plainAfter,
    handle, evaluates, dims_eq, plainEvaluates, found, same unitary quotients regular⟩

def oversized : Expression (2 ^ 48) :=
  dual (.int 2) ⟨0, by decide⟩

def seededAt (seed : Int64) : CallTree :=
  .call .dual [(Leaf.int 2).tree, keyword "seed", .literal (.int seed), keyword "dims",
    .literal (.int 1)]

/-- A dual number is not made with more partials than can be allocated, nor with a seed in
a partial that it does not have. -/
theorem dual_not_always_made :
    (¬∀ (n : Nat) (expression : Expression n), expression.hasDual = true →
      ∃ number after, Evaluates [expression.tree.datum] (.fresh "") (.dual number) after ∧
        number.dims = n) ∧
    ¬∀ seed : Int64, ∃ number after,
      Evaluates [(seededAt seed).datum] (.fresh "") (.dual number) after ∧
        number.dims = 1 := by
  constructor
  · intro made
    obtain ⟨number, after, evaluates, -⟩ := made _ oversized rfl
    exact CallTree.not_evaluates_of_run (by decide +kernel) evaluates
  · intro made
    obtain ⟨number, after, evaluates, -⟩ := made 1
    exact CallTree.not_evaluates_of_run (by decide +kernel) evaluates

end Expression

end

end Script

end CostTape
