import CostTape.Proofs.Recording.Growth

/-! Operations on dual numbers record literals, operators and assignments, and
nothing else. -/

namespace CostTape

namespace Dual

open Recording

variable {sort : Node → Prop}

theorem appends_zeroPartials (admits : Admits sort) (dims : Int) :
    (zeroPartials dims).Appends sort := by
  unfold zeroPartials
  split
  · exact .mapM _ fun handle => admits.appends_assign .unset handle
  · exact .throw _

theorem appends_constant (admits : Admits sort) (value : Float) (dims : Int) :
    (constant value dims).Appends sort :=
  (admits.appends_assign _ _).bind fun _ =>
    .map _ (appends_zeroPartials admits dims)

theorem appends_ofHandle (admits : Admits sort) (primal : Handle) (dims : Int) :
    (ofHandle primal dims).Appends sort :=
  .map _ (appends_zeroPartials admits dims)

theorem appends_seed (admits : Admits sort) (dual : Dual) (slot : Nat) :
    (dual.seed slot).Appends sort := by
  unfold seed
  split
  · exact (admits.appends_assign _ _).bind fun _ => .pure _
  · exact .throw _

theorem appends_seeded
    (admits : Admits sort) (value : Float) (slot dims : Int) :
    (seeded value slot dims).Appends sort := by
  unfold seeded
  split
  · exact .throw _
  · exact (appends_constant admits value dims).bind fun dual =>
      appends_seed admits dual slot.toNat

theorem appends_demandEqualDims (operation : String) (left right : Dual) :
    (demandEqualDims operation left right).Appends sort := by
  unfold demandEqualDims
  split
  · exact .pure _
  · exact .throw _

theorem appends_zipWith
    (admits : Admits sort) (operator : BinaryOperator) (left right : Dual) :
    (zipWith operator left right).Appends sort :=
  (admits.appends_binary _ _ _).bind fun _ =>
    .map _ (.mapM _ fun (_, _) => admits.appends_binary _ _ _)

theorem appends_chain
    (admits : Admits sort) (primal derivative : Handle) (inner : Dual) :
    (chain primal derivative inner).Appends sort :=
  .map _ (.mapM _ fun _ => admits.appends_binary _ _ _)

theorem appends_scale (admits : Admits sort) (dual : Dual) (factor : Handle) :
    (dual.scale factor).Appends sort :=
  (admits.appends_binary _ _ _).bind fun _ =>
    .map _ (.mapM _ fun _ => admits.appends_binary _ _ _)

theorem appends_addScalar (admits : Admits sort) (dual : Dual) (scalar : Handle) :
    (dual.addScalar scalar).Appends sort :=
  (admits.appends_binary _ _ _).bind fun _ => .pure _

theorem UnaryOperation.appends_apply
    (admits : Admits sort) (operation : UnaryOperation) (dual : Dual) :
    (operation.apply dual).Appends sort := by
  cases operation with
  | neg =>
      exact (admits.appends_unary _ _).bind fun _ =>
        .map _ (.mapM _ fun _ => admits.appends_unary _ _)
  | sin =>
      exact (admits.appends_unary _ _).bind fun _ =>
        (admits.appends_unary _ _).bind fun _ => appends_chain admits _ _ _
  | cos =>
      exact (admits.appends_unary _ _).bind fun _ =>
        (admits.appends_unary _ _).bind fun _ =>
          (admits.appends_unary _ _).bind fun _ => appends_chain admits _ _ _
  | sqrt =>
      exact (admits.appends_unary _ _).bind fun _ =>
        (admits.appends_binary _ _ _).bind fun _ =>
          (admits.appends_binary _ _ _).bind fun _ => appends_chain admits _ _ _
  | exp =>
      exact (admits.appends_unary _ _).bind fun _ => appends_chain admits _ _ _
  | log =>
      exact (admits.appends_unary _ _).bind fun _ =>
        (admits.appends_binary _ _ _).bind fun _ => appends_chain admits _ _ _

theorem BinaryOperation.appends_apply
    (admits : Admits sort) (operation : BinaryOperation) (left right : Dual) :
    (operation.apply left right).Appends sort := by
  cases operation with
  | add =>
      exact (appends_demandEqualDims _ _ _).bind fun _ => appends_zipWith admits _ _ _
  | sub =>
      exact (appends_demandEqualDims _ _ _).bind fun _ => appends_zipWith admits _ _ _
  | mul =>
      refine (appends_demandEqualDims _ _ _).bind fun _ =>
        (admits.appends_binary _ _ _).bind fun _ => .map _ (.mapM _ fun (_, _) => ?_)
      exact (admits.appends_binary _ _ _).bind fun _ =>
        (admits.appends_binary _ _ _).bind fun _ => admits.appends_binary _ _ _
  | div =>
      refine (appends_demandEqualDims _ _ _).bind fun _ =>
        (admits.appends_binary _ _ _).bind fun _ =>
          (admits.appends_binary _ _ _).bind fun _ => .map _ (.mapM _ fun (_, _) => ?_)
      exact (admits.appends_binary _ _ _).bind fun _ =>
        (admits.appends_binary _ _ _).bind fun _ => admits.appends_binary _ _ _

theorem run_assignEach_cons
    (destination source : Handle) (destinations sources : List Handle)
    (session : Session) :
    (assignEach (destination :: destinations) (source :: sources)).run session =
      match (Recording.assign destination source).runOn session with
      | (.ok assigned, middle) =>
          let rest := (assignEach destinations sources).run middle
          ((assigned :: rest.1.1, rest.1.2), rest.2)
      | (.error fault, middle) =>
          ((destination :: destinations, .error fault), middle) := by
  simp only [assignEach, StateT.run_bind]
  rcases outcome : (Recording.assign destination source).runOn session with
    ⟨fault | assigned, middle⟩ <;>
    rw [show (Recording.assign destination source).run.run session = _ from outcome] <;>
    rfl

theorem run_assign (destination source : Dual) (session : Session) :
    (destination.assign source).run session =
      let slots := destination.slots.getD (List.replicate source.dims .unset)
      if slots.length ≠ source.dims then
        ((destination, .error (.unequalDims "assign" slots.length source.dims)), session)
      else
        let result := (assignEach (destination.primal :: slots)
          (source.primal :: source.partials)).run session
        ((of (result.1.1.headD destination.primal) result.1.1.tail, result.1.2),
          result.2) := by
  unfold assign
  simp only
  split <;> rfl

theorem grows_assignEach
    (admits : Admits sort) (destinations sources : List Handle) (session : Session) :
    session.Grows sort ((assignEach destinations sources).run session).2 := by
  induction destinations generalizing sources session with
  | nil => cases sources <;> exact .refl
  | cons destination destinations induction =>
      cases sources with
      | nil => exact .refl
      | cons source sources =>
          have grown := admits.appends_assign destination source session
          rw [run_assignEach_cons]
          rcases outcome : (Recording.assign destination source).runOn session with
            ⟨fault | assigned, middle⟩ <;>
            rw [outcome] at grown
          · exact grown
          · exact grown.trans (induction sources middle)

theorem grows_assign
    (admits : Admits sort) (destination source : Dual) (session : Session) :
    session.Grows sort ((destination.assign source).run session).2 := by
  rw [run_assign]
  simp only
  split
  · exact .refl
  · exact grows_assignEach admits _ _ session

end Dual

end CostTape
