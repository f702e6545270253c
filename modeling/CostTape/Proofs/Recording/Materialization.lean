import CostTape.Proofs.Recording.Operands

/-! What exactly an operation appends: a constant for each literal among its operands, in
their order, and then its own node, unless an operand keeps it from being recorded. -/

namespace CostTape

namespace Handle

/-- The node that the handle stands for, if a literal is recorded at the position. -/
def idAt (position : Nat) : Handle → NodeId
  | literal _ => position
  | handle => handle.id

theorem literals_cons (handle : Handle) (handles : List Handle) :
    literals (handle :: handles) = handle.literal?.toList ++ literals handles := by
  cases handle <;> rfl

theorem resolve_cons (start : Nat) (handle : Handle) (handles : List Handle) :
    resolve start (handle :: handles) =
      handle.idAt start :: resolve (start + handle.literal?.toList.length) handles := by
  cases handle <;> rfl

theorem length_resolve (start : Nat) (handles : List Handle) :
    (resolve start handles).length = handles.length := by
  induction handles generalizing start with
  | nil => rfl
  | cons handle handles induction =>
      rw [resolve_cons, List.length_cons, induction, List.length_cons]

theorem getElem?_resolve (start : Nat) (handles : List Handle) (index : Nat) :
    (resolve start handles)[index]? =
      handles[index]?.map (idAt (start + (literals (handles.take index)).length)) := by
  induction handles generalizing start index with
  | nil => rfl
  | cons handle handles induction =>
      rw [resolve_cons]
      cases index with
      | zero => rfl
      | succ index =>
          rw [List.getElem?_cons_succ, induction, List.getElem?_cons_succ,
            List.take_succ_cons, literals_cons, List.length_append, Nat.add_assoc]

/-- An operand is a node that a handle names, or one that is recorded for a literal. -/
theorem mem_or_precedes_of_mem_resolve {start : Nat} {handles : List Handle} {id : NodeId}
    (set : .unset ∉ handles) (member : id ∈ resolve start handles) :
    .bound id ∈ handles ∨ id.precedes (start + (literals handles).length) = true := by
  induction handles generalizing start with
  | nil => cases member
  | cons handle handles induction =>
      rw [List.mem_cons, not_or] at set
      rw [resolve_cons, List.mem_cons] at member
      rw [literals_cons, List.length_append, ← Nat.add_assoc]
      obtain rfl | later := member
      · cases handle with
        | unset => exact (set.1 rfl).elim
        | bound id => exact .inl List.mem_cons_self
        | literal value =>
            right
            apply NodeId.precedes_natCast.mpr
            exact Nat.lt_add_right _ (Nat.lt_succ_self start)
      · exact (induction set.2 later).imp_left (List.mem_cons_of_mem _)

end Handle

namespace Graph

theorem append_of_forwardArgument {graph : Graph} {node : Node} {id : NodeId}
    (unfrozen : graph.frozen = false) (member : id ∈ node.args)
    (forward : id.precedes graph.size = false) :
    ∃ arg ∈ node.args, arg.precedes graph.size = false ∧
      graph.append node = .error (.forwardArgument graph.size arg) := by
  unfold append
  rw [unfrozen]
  cases found : node.args.find? fun arg => !arg.precedes graph.size with
  | none =>
      have backward := List.find?_eq_none.mp found id member
      simp [forward] at backward
  | some arg =>
      have first := List.find?_some found
      exact ⟨arg, List.mem_of_find?_eq_some found, by simpa using first, rfl⟩

end Graph

namespace Session

/-- The session after it has recorded nodes that stand in their places. -/
def withNodes (session : Session) (nodes : List Node) : Session :=
  { session with
    graph := { session.graph with nodes := session.graph.nodes ++ nodes.toArray } }

theorem size_withLiterals (session : Session) (values : List Float) :
    (session.withLiterals values).graph.size = session.graph.size + values.length :=
  Graph.size_addConstants session.graph values

theorem withLiterals_append (session : Session) (first second : List Float) :
    session.withLiterals (first ++ second) =
      (session.withLiterals first).withLiterals second := by
  unfold withLiterals
  rw [Graph.addConstants_append]

theorem withLiterals_eq_withNodes (session : Session) (values : List Float) :
    session.withLiterals values =
      session.withNodes (Graph.literalNodes session.graph.size values) := rfl

@[simp] theorem withNodes_nil (session : Session) : session.withNodes [] = session := by
  simp [withNodes]

theorem withNodes_append (session : Session) (first second : List Node) :
    session.withNodes (first ++ second) = (session.withNodes first).withNodes second := by
  simp [withNodes]

@[simp] theorem size_withNodes (session : Session) (nodes : List Node) :
    (session.withNodes nodes).graph.size = session.graph.size + nodes.length := by
  simp [withNodes, Graph.size]

theorem IsOpen.withNodes {session : Session} (isOpen : session.IsOpen)
    (nodes : List Node) : (session.withNodes nodes).IsOpen :=
  ⟨isOpen.recording, isOpen.unfrozen⟩

end Session

namespace Recording

variable {session : Session} {kind : Kind} {symbol : String} {operands : List Handle}

theorem runOn_record_of_backward {node : Node} (isOpen : session.IsOpen)
    (backward : ∀ arg ∈ node.args, arg.precedes session.graph.size = true)
    (targeted : node.kind = .assignment →
      node.target.precedes session.graph.size = true) :
    (record node).runOn session =
      (.ok session.graph.size,
        session.withNodes [Graph.placedAt session.graph.size node]) := by
  have accepted := Graph.append_eq_ok_iff.mpr ⟨isOpen.unfrozen, backward, targeted, rfl⟩
  rw [runOn_record_of_accepted isOpen accepted]
  rfl

theorem runOn_record_of_refused {node : Node} {fault : Graph.Fault}
    (isOpen : session.IsOpen) (refused : session.graph.append node = .error fault) :
    (record node).runOn session = (.error (.graph fault), session) := by
  rw [runOn_record, isOpen.recording, refused]
  rfl

theorem runOn_apply_of_unset (isOpen : session.IsOpen) (unset : .unset ∈ operands) :
    (apply kind symbol operands).runOn session =
      (.error .unsetHandle,
        session.withLiterals (Handle.literals (operands.takeWhile Handle.isSet))) := by
  unfold apply
  rw [runOn_bind, runOn_operands_of_unset isOpen unset]

theorem runOn_apply_of_set (isOpen : session.IsOpen) (set : .unset ∉ operands) :
    (apply kind symbol operands).runOn session =
      (Handle.bound <$> record
        (operation kind symbol (Handle.resolve session.graph.size operands))).runOn
          (session.withLiterals (Handle.literals operands)) :=
  runOn_bind_of_ok (runOn_operands_of_set isOpen set)

theorem runOn_apply_of_backward (isOpen : session.IsOpen) (own : kind ≠ .assignment)
    (set : .unset ∉ operands)
    (backward : ∀ id, .bound id ∈ operands →
      id.precedes (session.graph.size + (Handle.literals operands).length) = true) :
    let literals := Handle.literals operands
    let last := session.graph.size + literals.length
    (apply kind symbol operands).runOn session =
      (.ok (.bound last),
        session.withNodes (Graph.literalNodes session.graph.size literals ++
          [Graph.placedAt last
            (operation kind symbol (Handle.resolve session.graph.size operands))])) := by
  intro literals last
  have reached : (session.withLiterals literals).graph.size = last :=
    session.size_withLiterals literals
  rw [runOn_apply_of_set isOpen set, runOn_map,
    runOn_record_of_backward (isOpen.withLiterals literals) ?_ fun assigns =>
      (own assigns).elim]
  · rw [reached, Session.withNodes_append]
    rfl
  · rw [reached]
    intro arg member
    exact (Handle.mem_or_precedes_of_mem_resolve set member).elim (backward arg) id

/-- The constants are recorded all the same if the operation refers to a missing node. -/
theorem runOn_apply_of_forward {id : NodeId} (isOpen : session.IsOpen)
    (set : .unset ∉ operands) (member : .bound id ∈ operands)
    (forward : id.precedes (session.graph.size + (Handle.literals operands).length) =
      false) :
    let literals := Handle.literals operands
    let last := session.graph.size + literals.length
    ∃ arg, .bound arg ∈ operands ∧ arg.precedes last = false ∧
      (apply kind symbol operands).runOn session =
        (.error (.graph (.forwardArgument last arg)), session.withLiterals literals) := by
  intro literals last
  have reached : (session.withLiterals literals).graph.size = last :=
    session.size_withLiterals literals
  have opened := isOpen.withLiterals literals
  have refers :
    id ∈ (operation kind symbol (Handle.resolve session.graph.size operands)).args :=
    Handle.mem_resolve member _
  have later : id.precedes (session.withLiterals literals).graph.size = false := by
    rw [reached]
    exact forward
  obtain ⟨arg, read, missing, refused⟩ :=
    Graph.append_of_forwardArgument opened.unfrozen refers later
  rw [reached] at missing refused
  have named := (Handle.mem_or_precedes_of_mem_resolve set read).resolve_right
    (Bool.eq_false_iff.mp missing)
  refine ⟨arg, named, missing, ?_⟩
  rw [runOn_apply_of_set isOpen set, runOn_map, runOn_record_of_refused opened refused]
  rfl

namespace Operation

def isApplication : Operation → Bool
  | assign _ _ => false
  | _ => true

theorem step_eq_apply {operation : Operation} (applies : operation.isApplication = true) :
    ∃ kind symbol, kind ≠ .assignment ∧
      operation.step = apply kind symbol operation.operands ∧
      ∀ args, operation.node args = Recording.operation kind symbol args := by
  cases operation with
  | unary operator value =>
      exact ⟨operator.kind, operator.symbol, by cases operator <;> decide, rfl,
        fun _ => rfl⟩
  | binary operator left right =>
      exact ⟨operator.kind, operator.symbol, by cases operator <;> decide, rfl,
        fun _ => rfl⟩
  | call name operands => exact ⟨.call, name, by decide, rfl, fun _ => rfl⟩
  | ternary condition first second =>
      exact ⟨.call, "ternary", by decide, rfl, fun _ => rfl⟩
  | output name value => exact ⟨.output, name, by decide, rfl, fun _ => rfl⟩
  | assign destination source => cases applies

end Operation

/-- An operation in a session that records has one of three outcomes.  If an operand is
unset, it fails after the literals that come before the first such operand.  If one names
a node that is not there even after all literals, it fails after these.  Otherwise it
appends a constant for each literal and then its own node, whose arguments are the nodes
that the operands name and the constants in their places, and it gives the handle of that
node. -/
theorem operands_recorded_in_order {operation : Operation} (isOpen : session.IsOpen)
    (applies : operation.isApplication = true) :
    let start := session.graph.size
    let literals := Handle.literals operation.operands
    let last := start + literals.length
    (.unset ∈ operation.operands ∧
      operation.step.runOn session =
        (.error .unsetHandle, session.withNodes (Graph.literalNodes start
          (Handle.literals (operation.operands.takeWhile Handle.isSet))))) ∨
    (.unset ∉ operation.operands ∧ ∃ id, .bound id ∈ operation.operands ∧
      id.precedes last = false ∧
      operation.step.runOn session =
        (.error (.graph (.forwardArgument last id)),
          session.withNodes (Graph.literalNodes start literals))) ∨
    (.unset ∉ operation.operands ∧
      (∀ id, .bound id ∈ operation.operands → id.precedes last = true) ∧
      ∃ args : List NodeId, args.length = operation.operands.length ∧
        (∀ (index : Nat) (handle : Handle), operation.operands[index]? = some handle →
          args[index]? = some (handle.idAt
            (start + (Handle.literals (operation.operands.take index)).length))) ∧
        operation.step.runOn session =
          (.ok (.bound last), session.withNodes (Graph.literalNodes start literals ++
            [Graph.placedAt last (operation.node args)]))) := by
  intro start literals last
  obtain ⟨kind, symbol, own, step, node⟩ := Operation.step_eq_apply applies
  rw [step]
  by_cases unset : .unset ∈ operation.operands
  · exact .inl ⟨unset, runOn_apply_of_unset isOpen unset⟩
  right
  by_cases backward : ∀ id, .bound id ∈ operation.operands → id.precedes last = true
  · right
    refine ⟨unset, backward, Handle.resolve start operation.operands,
      Handle.length_resolve start operation.operands, fun index handle found => ?_, ?_⟩
    · rw [Handle.getElem?_resolve, found]
      rfl
    · rw [node]
      exact runOn_apply_of_backward isOpen own unset backward
  · left
    simp only [not_forall, Bool.not_eq_true] at backward
    obtain ⟨id, member, forward⟩ := backward
    exact ⟨unset, runOn_apply_of_forward isOpen unset member forward⟩

/-- Two nodes are there.  The call records two literals and names both kinds of nodes. -/
theorem call_recorded_in_order :
    let session := (Session.fresh "s").withLiterals [1.0, 1.0]
    let operation := Operation.call "f" [.literal 2.0, .bound 1, .literal 2.0]
    session.IsOpen ∧
      operation.step.runOn session =
        (.ok (.bound 4), session.withNodes (Graph.literalNodes 2 [2.0, 2.0] ++
          [⟨4, .call, 4, 0.0, "f", [2, 1, 3]⟩])) := by
  intro session operation
  have isOpen : session.IsOpen := ⟨rfl, rfl⟩
  refine ⟨isOpen, ?_⟩
  obtain ⟨unset, -⟩ | ⟨-, id, member, forward, -⟩ | ⟨-, -, args, length, each, ran⟩ :=
    @operands_recorded_in_order session operation isOpen rfl
  · revert unset
    decide
  · have named : id = 1 := by simpa [operation, Operation.operands] using member
    rw [named] at forward
    revert forward
    decide
  · obtain ⟨first, second, third, rfl⟩ := List.length_eq_three.mp length
    cases each 0 _ rfl
    cases each 1 _ rfl
    cases each 2 _ rfl
    exact ran

end Recording

end CostTape
