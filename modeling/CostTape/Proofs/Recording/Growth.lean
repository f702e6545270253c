import CostTape.Dual.Operator

/-! Recording steps only append: what a step leaves behind is what it found,
followed by new nodes. -/

namespace CostTape

namespace Session

/-- One session comes from another by recording nodes of a certain sort, one
after the other. -/
inductive Grows (sort : Node → Prop) (before : Session) : Session → Prop
  | refl : Grows sort before before
  | record {after : Session} {node : Node} {graph : Graph}
      (earlier : Grows sort before after)
      (recording : after.isRecording = true)
      (sorted : sort node)
      (accepted : after.graph.append node = .ok graph) :
      Grows sort before { after with graph }

namespace Grows

variable {sort wider : Node → Prop} {before middle after : Session}

theorem trans
    (first : Grows sort before middle) (second : Grows sort middle after) :
    Grows sort before after := by
  induction second with
  | refl => exact first
  | record _ recording sorted accepted induction =>
      exact induction.record recording sorted accepted

theorem mono
    (widens : ∀ node, sort node → wider node)
    (grown : Grows sort before after) : Grows wider before after := by
  induction grown with
  | refl => exact .refl
  | record _ recording sorted accepted induction =>
      exact induction.record recording (widens _ sorted) accepted

theorem isStopped_eq (grown : Grows sort before after) :
    after.isStopped = before.isStopped := by
  induction grown with
  | refl => rfl
  | record _ _ _ _ induction => exact induction

theorem eq_of_not_recording
    (grown : Grows sort before after)
    (stopped : before.isRecording = false) : after = before := by
  induction grown with
  | refl => rfl
  | record earlier recording _ _ induction =>
      subst induction
      rw [stopped] at recording
      contradiction

theorem frozen_eq (grown : Grows sort before after) :
    after.graph.frozen = before.graph.frozen := by
  induction grown with
  | refl => rfl
  | record _ _ _ accepted induction =>
      exact (Graph.frozen_of_append accepted).trans induction

theorem nodes_prefix (grown : Grows sort before after) :
    before.graph.nodes.toList <+: after.graph.nodes.toList := by
  induction grown with
  | refl => exact List.prefix_refl _
  | record _ _ _ accepted induction =>
      refine induction.trans ?_
      simp only [Graph.nodes_of_append accepted, Array.toList_push]
      exact List.prefix_append _ _

theorem size_le (grown : Grows sort before after) :
    before.graph.size ≤ after.graph.size :=
  List.IsPrefix.length_le grown.nodes_prefix

end Grows

end Session

namespace Recording

@[simp] theorem runOn_pure (value : α) (session : Session) :
    (pure value : Recording α).runOn session = (.ok value, session) := rfl

@[simp] theorem runOn_throw (fault : RecordingFault) (session : Session) :
    (throw fault : Recording α).runOn session = (.error fault, session) := rfl

theorem runOn_bind
    (step : Recording α) (next : α → Recording β) (session : Session) :
    (step >>= next).runOn session =
      match step.runOn session with
      | (.ok value, after) => (next value).runOn after
      | (.error fault, after) => (.error fault, after) := by
  simp only [runOn, ExceptT.run_bind]
  simp only [bind, StateT.bind]
  rcases ExceptT.run step session with ⟨fault | value, after⟩ <;> rfl

theorem runOn_map
    (convert : α → β) (step : Recording α) (session : Session) :
    (convert <$> step).runOn session =
      ((step.runOn session).1.map convert, (step.runOn session).2) := by
  simp only [runOn, ExceptT.run_map]
  simp only [Functor.map, StateT.map]
  rcases ExceptT.run step session with ⟨fault | value, after⟩ <;> rfl

@[simp] theorem runOn_get (session : Session) :
    (get : Recording Session).runOn session = (.ok session, session) := rfl

theorem runOn_bind_of_ok
    {step : Recording α} {next : α → Recording β} {session middle : Session}
    {value : α} (first : step.runOn session = (.ok value, middle)) :
    (step >>= next).runOn session = (next value).runOn middle := by
  rw [runOn_bind, first]

theorem runOn_demandRecording (operation : String) (session : Session) :
    (demandRecording operation).runOn session =
      (if session.isRecording then .ok () else .error (.notRecording operation),
        session) := by
  unfold demandRecording
  rw [runOn_bind_of_ok (runOn_get session)]
  cases session.isRecording <;> rfl

theorem runOn_record (node : Node) (session : Session) :
    (record node).runOn session =
      if session.isRecording then
        match session.graph.append node with
        | .ok graph => (.ok session.graph.size, { session with graph })
        | .error fault => (.error (.graph fault), session)
      else
        (.error (.notRecording node.kind.name), session) := by
  unfold record
  rw [runOn_bind, runOn_demandRecording]
  cases session.isRecording with
  | false => rfl
  | true =>
      simp only [if_true]
      rw [runOn_bind_of_ok (runOn_get session)]
      cases session.graph.append node <;> rfl

theorem runOn_bind_eq_ok_iff
    {step : Recording α} {next : α → Recording β} {session after : Session}
    {result : β} :
    (step >>= next).runOn session = (.ok result, after) ↔
      ∃ value middle, step.runOn session = (.ok value, middle) ∧
        (next value).runOn middle = (.ok result, after) := by
  rw [runOn_bind]
  rcases step.runOn session with ⟨fault | value, middle⟩
  · simp
  · constructor
    · intro succeeded
      exact ⟨value, middle, rfl, succeeded⟩
    · rintro ⟨_, _, same, succeeded⟩
      cases same
      exact succeeded

theorem length_of_runOn_mapM
    {step : α → Recording β} {items : List α} {results : List β}
    {session after : Session}
    (succeeded : (items.mapM step).runOn session = (.ok results, after)) :
    results.length = items.length := by
  induction items generalizing results session with
  | nil =>
      simp only [List.mapM_nil, runOn_pure] at succeeded
      cases succeeded
      rfl
  | cons item items induction =>
      simp only [List.mapM_cons, runOn_bind_eq_ok_iff, runOn_pure] at succeeded
      obtain ⟨result, middle, -, others, last, rest, same⟩ := succeeded
      cases same
      exact congrArg Nat.succ (induction rest)

/-- Whatever its outcome, the step only records nodes of a certain sort. -/
def Appends (sort : Node → Prop) (step : Recording α) : Prop :=
  ∀ session : Session, session.Grows sort (step.runOn session).2

namespace Appends

variable {sort wider : Node → Prop}

theorem pure (value : α) : (pure value : Recording α).Appends sort :=
  fun _ => .refl

theorem throw (fault : RecordingFault) : (throw fault : Recording α).Appends sort :=
  fun _ => .refl

theorem bind
    {step : Recording α} {next : α → Recording β}
    (first : step.Appends sort) (second : ∀ value, (next value).Appends sort) :
    (step >>= next).Appends sort := by
  intro session
  have grown := first session
  rw [runOn_bind]
  rcases outcome : step.runOn session with ⟨fault | value, middle⟩ <;>
    rw [outcome] at grown
  · exact grown
  · exact grown.trans (second value middle)

theorem map
    {step : Recording α} (convert : α → β) (appends : step.Appends sort) :
    (convert <$> step).Appends sort := by
  intro session
  rw [runOn_map]
  exact appends session

theorem mapM
    {step : α → Recording β} (items : List α)
    (each : ∀ item, (step item).Appends sort) :
    (items.mapM step).Appends sort := by
  induction items with
  | nil => exact pure []
  | cons item items induction =>
      rw [List.mapM_cons]
      exact (each item).bind fun _ => induction.bind fun _ => pure _

theorem mono
    {step : Recording α} (widens : ∀ node, sort node → wider node)
    (appends : step.Appends sort) : step.Appends wider :=
  fun session => (appends session).mono widens

theorem demandRecording (operation : String) :
    (demandRecording operation).Appends sort := by
  intro session
  rw [runOn_demandRecording]
  exact .refl

theorem size : size.Appends sort :=
  (demandRecording "size").bind fun _ _ => .refl

theorem nodeOf (handle : Handle) : (nodeOf handle).Appends sort := by
  refine (demandRecording "node").bind fun _ session => ?_
  rw [runOn_bind_of_ok (runOn_get session)]
  cases session.graph.node handle.id <;> exact .refl

theorem record {node : Node} (sorted : sort node) : (record node).Appends sort := by
  intro session
  rw [runOn_record]
  cases recording : session.isRecording with
  | false => exact .refl
  | true =>
      simp only [if_true]
      cases accepted : session.graph.append node with
      | error fault => exact .refl
      | ok graph => exact .record .refl recording sorted accepted

end Appends

def operation (kind : Kind) (symbol : String) (args : List NodeId) : Node :=
  { Node.zero with kind, symbol, args }

def IsLiteral (node : Node) : Prop :=
  ∃ value, node = { Node.zero with kind := .constant, value }

theorem appends_constant (value : Float) : (constant value).Appends IsLiteral :=
  .map _ (.record ⟨value, rfl⟩)

theorem appends_operand (handle : Handle) : (operand handle).Appends IsLiteral := by
  cases handle with
  | unset => exact .throw _
  | bound id => exact .pure _
  | literal value => exact .map _ (appends_constant value)

/-- An operation records literals first, and then itself if it succeeds. -/
theorem runOn_apply
    (kind : Kind) (symbol : String) (operands : List Handle) (session : Session) :
    ∃ middle, session.Grows IsLiteral middle ∧
      ((∃ fault, (apply kind symbol operands).runOn session = (.error fault, middle)) ∨
        ∃ args graph, args.length = operands.length ∧ middle.isRecording = true ∧
          middle.graph.append (operation kind symbol args) = .ok graph ∧
          (apply kind symbol operands).runOn session =
            (.ok (.bound middle.graph.size), { middle with graph })) := by
  have grown := Appends.mapM operands appends_operand session
  unfold apply
  rw [runOn_bind]
  rcases collected : (operands.mapM operand).runOn session with ⟨fault | args, middle⟩ <;>
    rw [collected] at grown <;>
    refine ⟨middle, grown, ?_⟩
  · exact .inl ⟨fault, rfl⟩
  · simp only [runOn_map, runOn_record]
    cases recording : middle.isRecording with
    | false => exact .inl ⟨_, rfl⟩
    | true =>
        cases accepted : middle.graph.append (operation kind symbol args) with
        | error fault =>
            refine .inl ⟨.graph fault, ?_⟩
            rw [operation] at accepted
            simp [accepted, Except.map]
        | ok graph =>
            refine .inr ⟨args, graph, length_of_runOn_mapM collected, rfl, accepted, ?_⟩
            rw [operation] at accepted
            simp [accepted, Except.map]

/-- The sort admits what is recorded by operations that take no name. -/
structure Admits (sort : Node → Prop) : Prop where
  literal : ∀ node, IsLiteral node → sort node
  unary : ∀ (operator : UnaryOperator) (arg : NodeId),
    sort (operation operator.kind operator.symbol [arg])
  binary : ∀ (operator : BinaryOperator) (left right : NodeId),
    sort (operation operator.kind operator.symbol [left, right])
  assignment : ∀ target arg : NodeId,
    sort { Node.zero with kind := .assignment, target, args := [arg] }
  ternary : ∀ args : List NodeId, sort (operation .call "ternary" args)
  nop : sort (operation .nop "" [])

structure AdmitsName (sort : Node → Prop) (name : String) : Prop where
  input : sort (operation .input name [])
  output : ∀ arg : NodeId, sort (operation .output name [arg])
  call : ∀ args : List NodeId, sort (operation .call name args)

theorem AdmitsName.all (name : String) : AdmitsName (fun _ => True) name := by
  constructor <;> simp

variable {sort : Node → Prop}

theorem Appends.apply
    {kind : Kind} {symbol : String} {operands : List Handle}
    (literal : ∀ node, IsLiteral node → sort node)
    (sorted : ∀ args : List NodeId, args.length = operands.length →
      sort (operation kind symbol args)) :
    (apply kind symbol operands).Appends sort := by
  intro session
  obtain ⟨middle, grown, ⟨fault, failed⟩ |
    ⟨args, graph, sameLength, recording, accepted, succeeded⟩⟩ :=
      runOn_apply kind symbol operands session
  · rw [failed]
    exact grown.mono literal
  · rw [succeeded]
    exact (grown.mono literal).record recording (sorted args sameLength) accepted

namespace Admits

theorem all : Admits fun _ => True := by
  constructor <;> simp

theorem mono {wider : Node → Prop} (widens : ∀ node, sort node → wider node)
    (admits : Admits sort) : Admits wider where
  literal := fun node literal => widens node (admits.literal node literal)
  unary := fun operator arg => widens _ (admits.unary operator arg)
  binary := fun operator left right => widens _ (admits.binary operator left right)
  assignment := fun target arg => widens _ (admits.assignment target arg)
  ternary := fun args => widens _ (admits.ternary args)
  nop := widens _ admits.nop

theorem appends_unary (admits : Admits sort) (operator : UnaryOperator) (value : Handle) :
    (Recording.unary operator value).Appends sort :=
  .apply admits.literal fun
    | [arg], _ => admits.unary operator arg

theorem appends_binary
    (admits : Admits sort) (operator : BinaryOperator) (left right : Handle) :
    (Recording.binary operator left right).Appends sort :=
  .apply admits.literal fun
    | [first, second], _ => admits.binary operator first second

theorem appends_assign (admits : Admits sort) (destination source : Handle) :
    (assign destination source).Appends sort := by
  refine ((appends_operand source).mono admits.literal).bind fun arg => ?_
  cases destination with
  | bound target =>
      exact (Appends.record (admits.assignment target arg)).bind fun _ => .pure _
  | unset => exact .pure _
  | literal value => exact .pure _

end Admits

end Recording

end CostTape
