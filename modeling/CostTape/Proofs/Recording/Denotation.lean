import Mathlib.Data.List.Forall2
import CostTape.Proofs.Recording.Growth
import CostTape.Proofs.Trace.Execution

/-! Recorded operations compute what they say: the handle that an operation gives
stands for the operation's value, in the trace recorded so far and in every later one. -/

namespace CostTape

universe u

namespace Session

structure IsOpen (session : Session) : Prop where
  recording : session.isRecording = true
  unfrozen : session.graph.frozen = false

theorem IsOpen.append {session : Session} {node : Node} {graph : Graph}
    (isOpen : session.IsOpen) (accepted : session.graph.append node = .ok graph) :
    IsOpen { session with graph } :=
  ⟨isOpen.recording, (Graph.frozen_of_append accepted).trans isOpen.unfrozen⟩

theorem Grows.isOpen {sort : Node → Prop} {before after : Session}
    (grown : before.Grows sort after) (isOpen : before.IsOpen) : after.IsOpen where
  recording := by
    rw [isRecording, grown.isStopped_eq]
    exact isOpen.recording
  unfrozen := grown.frozen_eq.trans isOpen.unfrozen

end Session

variable {V : Type u} (meaning : Interpretation V)

/-- What the handle stands for once the trace has been executed. -/
def Handle.Denotes (graph : Graph) : Handle → V → Prop
  | .bound id, value => id.precedes graph.size = true ∧ meaning.contents graph id = value
  | .literal number, value => meaning.literal number = value
  | .unset, _ => False

/-- The later session has recorded more and overwritten nothing that the earlier
one had. -/
structure Session.Extends (before after : Session) : Prop where
  isOpen : after.IsOpen
  size_le : before.graph.size ≤ after.graph.size
  contents_eq : ∀ slot : NodeId, slot.precedes before.graph.size = true →
    meaning.contents after.graph slot = meaning.contents before.graph slot

/-- The later session has recorded more and overwritten one slot. -/
structure Session.Overwrites (target : NodeId) (value : V) (before after : Session) :
    Prop where
  isOpen : after.IsOpen
  size_le : before.graph.size ≤ after.graph.size
  target_eq : meaning.contents after.graph target = value
  contents_eq : ∀ slot : NodeId, slot.precedes before.graph.size = true → slot ≠ target →
    meaning.contents after.graph slot = meaning.contents before.graph slot

/-- The step succeeds, overwrites nothing, and gives a result of which the
condition holds. -/
def Recording.Yields (step : Recording α) (session : Session)
    (condition : Graph → α → Prop) : Prop :=
  ∃ result after, step.runOn session = (.ok result, after) ∧
    session.Extends meaning after ∧ condition after.graph result

variable {meaning}

namespace Session.Extends

variable {before middle after : Session}

theorem refl (isOpen : before.IsOpen) : before.Extends meaning before :=
  ⟨isOpen, Nat.le_refl _, fun _ _ => rfl⟩

theorem trans (first : before.Extends meaning middle)
    (second : middle.Extends meaning after) : before.Extends meaning after where
  isOpen := second.isOpen
  size_le := Nat.le_trans first.size_le second.size_le
  contents_eq := by
    intro slot old
    rw [second.contents_eq slot (NodeId.precedes_mono first.size_le old)]
    exact first.contents_eq slot old

theorem record {node : Node} {graph : Graph}
    (extended : before.Extends meaning middle)
    (accepted : middle.graph.append node = .ok graph)
    (fresh : ∀ slot : NodeId, slot.precedes before.graph.size = true →
      slot ≠ (Graph.placedAt middle.graph.size node).target) :
    before.Extends meaning { middle with graph } where
  isOpen := extended.isOpen.append accepted
  size_le := by
    have grown := Graph.size_of_append accepted
    have earlier := extended.size_le
    show before.graph.size ≤ graph.size
    omega
  contents_eq := by
    intro slot old
    show meaning.contents graph slot = _
    rw [meaning.contents_of_append accepted, meaning.step_of_ne _ _ (fresh slot old)]
    exact extended.contents_eq slot old

theorem overwrite {target : NodeId} {value : V} (extended : before.Extends meaning middle)
    (overwrites : middle.Overwrites meaning target value after)
    (fresh : target.precedes before.graph.size = false) :
    before.Extends meaning after where
  isOpen := overwrites.isOpen
  size_le := Nat.le_trans extended.size_le overwrites.size_le
  contents_eq := by
    intro slot old
    have other : slot ≠ target := by
      rintro rfl
      rw [old] at fresh
      contradiction
    rw [overwrites.contents_eq slot (NodeId.precedes_mono extended.size_le old) other]
    exact extended.contents_eq slot old

theorem denotes (extended : before.Extends meaning after) {handle : Handle} {value : V}
    (denotes : handle.Denotes meaning before.graph value) :
    handle.Denotes meaning after.graph value := by
  cases handle with
  | unset => exact denotes
  | literal literal => exact denotes
  | bound id =>
      refine ⟨NodeId.precedes_mono extended.size_le denotes.1, ?_⟩
      rw [extended.contents_eq id denotes.1]
      exact denotes.2

end Session.Extends

namespace Recording

variable {session : Session}

namespace Yields

theorem pure {value : α} {condition : Graph → α → Prop} (isOpen : session.IsOpen)
    (holds : condition session.graph value) :
    (pure value : Recording α).Yields meaning session condition :=
  ⟨value, session, rfl, .refl isOpen, holds⟩

theorem bind {step : Recording α} {next : α → Recording β}
    {between : Graph → α → Prop} {condition : Graph → β → Prop}
    (first : step.Yields meaning session between)
    (second : ∀ (middle : Session) (value : α), session.Extends meaning middle →
      between middle.graph value → (next value).Yields meaning middle condition) :
    (step >>= next).Yields meaning session condition := by
  obtain ⟨value, middle, ran, extended, holds⟩ := first
  obtain ⟨result, after, finished, further, last⟩ := second middle value extended holds
  refine ⟨result, after, ?_, extended.trans further, last⟩
  rw [runOn_bind_of_ok ran, finished]

theorem map {step : Recording α} (convert : α → β) {condition : Graph → β → Prop}
    (yields : step.Yields meaning session fun graph value =>
      condition graph (convert value)) :
    (convert <$> step).Yields meaning session condition := by
  obtain ⟨value, after, ran, extended, holds⟩ := yields
  refine ⟨convert value, after, ?_, extended, holds⟩
  rw [runOn_map, ran]
  rfl

theorem imp {step : Recording α} {condition weaker : Graph → α → Prop}
    (yields : step.Yields meaning session condition)
    (implies : ∀ (after : Session) (value : α), session.Extends meaning after →
      condition after.graph value → weaker after.graph value) :
    step.Yields meaning session weaker := by
  obtain ⟨value, after, ran, extended, holds⟩ := yields
  exact ⟨value, after, ran, extended, implies after value extended holds⟩

theorem mapM {step : α → Recording β} {related : Graph → β → V → Prop}
    (stable : ∀ (before after : Session) (result : β) (value : V),
      before.Extends meaning after → related before.graph result value →
      related after.graph result value)
    {items : List α} {values : List V} (isOpen : session.IsOpen)
    (each : List.Forall₂ (fun item value => ∀ middle : Session,
      session.Extends meaning middle →
        (step item).Yields meaning middle fun graph result =>
        related graph result value) items values) :
    (items.mapM step).Yields meaning session fun graph results =>
      List.Forall₂ (related graph) results values := by
  -- The steps start later and later, always beyond the session of the statement.
  suffices beyond : ∀ current : Session, session.Extends meaning current →
      (items.mapM step).Yields meaning current fun graph results =>
        List.Forall₂ (related graph) results values by
    exact beyond session (.refl isOpen)
  induction each with
  | nil =>
      intro current reached
      exact pure reached.isOpen .nil
  | cons one others induction =>
      intro current reached
      rw [List.mapM_cons]
      refine (one current reached).bind fun middle result extended holds => ?_
      refine (induction middle (reached.trans extended)).bind
        fun last results further rest => ?_
      exact pure further.isOpen (.cons (stable _ _ _ _ further holds) rest)

end Yields

theorem runOn_record_of_accepted {node : Node} {graph : Graph}
    (isOpen : session.IsOpen) (accepted : session.graph.append node = .ok graph) :
    (record node).runOn session = (.ok session.graph.size, { session with graph }) := by
  rw [runOn_record, isOpen.recording, accepted]
  rfl

theorem exists_append (node : Node) (isOpen : session.IsOpen)
    (backward : ∀ arg ∈ node.args, arg.precedes session.graph.size = true)
    (targeted : node.kind = .assignment →
      node.target.precedes session.graph.size = true) :
    ∃ graph, session.graph.append node = .ok graph :=
  ⟨_, Graph.append_eq_ok_iff.mpr ⟨isOpen.unfrozen, backward, targeted, rfl⟩⟩

theorem yields_record {node : Node} (isOpen : session.IsOpen)
    (own : node.kind ≠ .assignment)
    (backward : ∀ arg ∈ node.args, arg.precedes session.graph.size = true) :
    (record node).Yields meaning session fun graph id =>
      id = session.graph.size ∧ graph.size = session.graph.size + 1 ∧
        (Handle.bound id).Denotes meaning graph
          (meaning.result (meaning.contents session.graph) node) := by
  obtain ⟨graph, accepted⟩ := exists_append node isOpen backward fun absurd =>
    (own absurd).elim
  have target : (Graph.placedAt session.graph.size node).target = session.graph.size := by
    simp [Graph.placedAt, own]
  have grown := Graph.size_of_append accepted
  refine ⟨session.graph.size, { session with graph },
    runOn_record_of_accepted isOpen accepted, ?_, rfl, grown, ?_, ?_⟩
  · refine (Session.Extends.refl isOpen).record accepted fun slot old => ?_
    rintro rfl
    rw [target, NodeId.precedes_natCast] at old
    omega
  · rw [NodeId.precedes_natCast]
    show session.graph.size < graph.size
    omega
  · rw [← meaning.result_placedAt _ session.graph.size own, ← meaning.step_target, target]
    exact congrFun (meaning.contents_of_append accepted) _

theorem yields_constant (isOpen : session.IsOpen) (value : Float) :
    (constant value).Yields meaning session fun graph handle =>
      handle = .bound session.graph.size ∧ graph.size = session.graph.size + 1 ∧
        handle.Denotes meaning graph (meaning.literal value) := by
  refine .map _ ((yields_record isOpen (by simp) (by simp [Node.zero])).imp ?_)
  rintro after id - ⟨rfl, grown, denotes⟩
  exact ⟨rfl, grown, denotes⟩

theorem yields_operand {handle : Handle} {value : V} (isOpen : session.IsOpen)
    (denotes : handle.Denotes meaning session.graph value) :
    (operand handle).Yields meaning session fun graph id =>
      (Handle.bound id).Denotes meaning graph value := by
  cases handle with
  | unset => exact denotes.elim
  | bound id => exact .pure isOpen denotes
  | literal literal =>
      refine .map _ ((yields_constant isOpen literal).imp ?_)
      rintro after handle - ⟨rfl, -, recorded⟩
      rw [← denotes]
      exact recorded

theorem yields_operands {handles : List Handle} {values : List V}
    (isOpen : session.IsOpen)
    (denote : List.Forall₂ (Handle.Denotes meaning session.graph) handles values) :
    (handles.mapM operand).Yields meaning session fun graph ids =>
      List.Forall₂ (fun id => (Handle.bound id).Denotes meaning graph) ids values := by
  refine .mapM (fun before after id value extended denotes => ?_) isOpen ?_
  · exact extended.denotes denotes
  refine denote.imp fun handle value denotes middle extended => ?_
  exact yields_operand extended.isOpen (extended.denotes denotes)

theorem yields_apply {kind : Kind} {symbol : String} {handles : List Handle}
    {values : List V} (isOpen : session.IsOpen) (computes : kind.isOperation = true)
    (denote : List.Forall₂ (Handle.Denotes meaning session.graph) handles values) :
    (apply kind symbol handles).Yields meaning session fun graph handle =>
      handle.Denotes meaning graph (meaning.operation kind symbol values) := by
  refine (yields_operands isOpen denote).bind fun middle ids extended denote => ?_
  obtain ⟨backward, read⟩ := (List.forall₂_and_left _ _).mp denote
  have contents : ids.map (meaning.contents middle.graph) = values := by
    rw [← List.forall₂_eq_eq_eq, List.forall₂_map_left_iff]
    exact read
  refine .map _ ((yields_record extended.isOpen ?_ backward).imp ?_)
  · rintro rfl
    cases computes
  · rintro after id - ⟨-, -, denotes⟩
    rw [meaning.result_of_isOperation _ computes] at denotes
    rw [← contents]
    exact denotes

theorem yields_parameter (isOpen : session.IsOpen) (name : String) :
    (parameter name).Yields meaning session fun graph handle =>
      handle.Denotes meaning graph (meaning.input name) := by
  refine (yields_operands isOpen .nil).bind fun middle ids extended none => ?_
  rw [List.forall₂_nil_right_iff] at none
  subst none
  refine .map _ ((yields_record extended.isOpen (by simp) (by simp)).imp ?_)
  rintro after id - ⟨-, -, denotes⟩
  exact denotes

variable {handle left right : Handle} {value first second : V}

theorem yields_unary (operator : UnaryOperator) (isOpen : session.IsOpen)
    (denotes : handle.Denotes meaning session.graph value) :
    (unary operator handle).Yields meaning session fun graph handle =>
      handle.Denotes meaning graph
        (meaning.operation operator.kind operator.symbol [value]) := by
  refine yields_apply isOpen ?_ (.cons denotes .nil)
  cases operator <;> rfl

theorem yields_binary (operator : BinaryOperator) (isOpen : session.IsOpen)
    (denotesLeft : left.Denotes meaning session.graph first)
    (denotesRight : right.Denotes meaning session.graph second) :
    (binary operator left right).Yields meaning session fun graph handle =>
      handle.Denotes meaning graph
        (meaning.operation operator.kind operator.symbol [first, second]) := by
  refine yields_apply isOpen ?_ (.cons denotesLeft (.cons denotesRight .nil))
  cases operator <;> rfl

theorem yields_materialize (isOpen : session.IsOpen)
    (denotes : handle.Denotes meaning session.graph value) :
    (materialize handle).Yields meaning session fun graph handle =>
      handle.Denotes meaning graph value :=
  .map _ (yields_operand isOpen denotes)

theorem assign_unset_literal (number : Float) :
    assign .unset (.literal number) = constant number := by
  simp only [assign, operand, constant, Handle.id, map_eq_pure_bind, bind_assoc,
    pure_bind]

theorem overwrites_assign {target : NodeId} {source : Handle} (isOpen : session.IsOpen)
    (denotes : source.Denotes meaning session.graph value)
    (targeted : target.precedes session.graph.size = true) :
    ∃ after, (assign (.bound target) source).runOn session =
      (.ok (.bound target), after) ∧ session.Overwrites meaning target value after := by
  obtain ⟨arg, middle, ran, extended, read⟩ := yields_operand isOpen denotes
  obtain ⟨graph, accepted⟩ :=
    exists_append { Node.zero with kind := .assignment, target, args := [arg] }
      extended.isOpen (by simpa using read.1)
      (fun _ => NodeId.precedes_mono extended.size_le targeted)
  have recorded := runOn_record_of_accepted extended.isOpen accepted
  have grown := Graph.size_of_append accepted
  have written := meaning.contents_of_append accepted
  refine ⟨{ middle with graph }, ?_, ?_⟩
  · unfold assign
    rw [runOn_bind_of_ok ran]
    simp only
    rw [runOn_bind_of_ok recorded, runOn_pure]
  · refine ⟨extended.isOpen.append accepted, ?_, ?_, ?_⟩
    · have earlier := extended.size_le
      show session.graph.size ≤ graph.size
      omega
    · show meaning.contents graph target = value
      rw [written, ← read.2]
      exact meaning.step_target _ _
    · intro slot old other
      show meaning.contents graph slot = _
      rw [written, meaning.step_of_ne _ _ (by simpa [Graph.placedAt] using other)]
      exact extended.contents_eq slot old

end Recording

end CostTape
