import CostTape.Proofs.Dual.Recorded
import CostTape.Proofs.Dual.Slots
import CostTape.Proofs.Recording.Materialization

/-! Where the operations on dual numbers put what they record: first the primal, then the
partials slot by slot. -/

namespace CostTape

theorem Handle.denotes_of_within {graph : Graph} {handle : Handle}
    (set : handle.isSet = true) (within : handle.Within graph.size) :
    handle.Denotes Interpretation.indifferent graph () := by
  cases handle with
  | unset => cases set
  | bound id => exact ⟨within, rfl⟩
  | literal value => rfl

theorem Session.size_le_withNodes (session : Session) (nodes : List Node) :
    session.graph.size ≤ (session.withNodes nodes).graph.size :=
  Nat.le.intro (session.size_withNodes nodes).symm

theorem Session.isRecorded_withNodes (session : Session) (node : Node) :
    (Handle.bound session.graph.size).IsRecorded (session.withNodes [node]).graph := by
  apply NodeId.precedes_natCast.mpr
  rw [size_withNodes]
  exact Nat.lt_succ_self _

/-- The handles as the list of the nodes that they name. -/
theorem Ascending.exists_ids {lower upper : Nat} {handles : List Handle}
    (ascending : Ascending upper lower handles) :
    ∃ ids : List Nat, handles = ids.map (fun id : Nat => .bound id) ∧
      ids.Pairwise (· < ·) ∧ ∀ id ∈ ids, lower ≤ id ∧ id < upper := by
  induction ascending with
  | nil ordered => exact ⟨[], rfl, .nil, by simp⟩
  | @cons lower place handles above rest induction =>
      obtain ⟨ids, rfl, ordered, inside⟩ := induction
      have bound := rest.lower_le
      refine ⟨place :: ids, rfl, .cons (fun id member => (inside id member).1) ordered,
        ?_⟩
      refine List.forall_mem_cons.mpr ⟨⟨above, bound⟩, fun id member => ?_⟩
      have later := inside id member
      omega

namespace Recording

variable {session : Session}

theorem runOn_constant (isOpen : session.IsOpen) (value : Float) :
    (constant value).runOn session =
      (.ok (.bound session.graph.size), session.withLiterals [value]) := by
  unfold constant
  rw [runOn_map,
    runOn_record_of_accepted isOpen (Graph.append_constant value isOpen.unfrozen)]
  rfl

theorem runOn_assign_literal {target : NodeId} (isOpen : session.IsOpen) (value : Float)
    (targeted : target.precedes session.graph.size = true) :
    (assign (.bound target) (.literal value)).runOn session =
      (.ok (.bound target), (session.withLiterals [value]).withNodes
        [⟨(session.graph.size + 1 : Nat), .assignment, target, 0.0, "",
          [session.graph.size]⟩]) := by
  have reached : (session.withLiterals [value]).graph.size = session.graph.size + 1 :=
    session.size_withLiterals [value]
  have recorded := @runOn_record_of_backward (session.withLiterals [value])
    { Node.zero with kind := .assignment, target, args := [session.graph.size] }
    (isOpen.withLiterals [value]) (by simp [reached, NodeId.precedes_natCast]) fun _ => by
      rw [reached]
      exact NodeId.precedes_mono (Nat.le_succ _) targeted
  rw [reached] at recorded
  unfold assign
  rw [runOn_bind_of_ok (runOn_literal isOpen value)]
  simp only
  rw [runOn_bind_of_ok recorded]
  rfl

theorem runOn_binary_of_recorded (operator : BinaryOperator) {left right : Handle}
    (isOpen : session.IsOpen) (recordedLeft : left.IsRecorded session.graph)
    (recordedRight : right.IsRecorded session.graph) :
    (binary operator left right).runOn session =
      (.ok (.bound session.graph.size), session.withNodes
        [Graph.placedAt session.graph.size
          (operation operator.kind operator.symbol [left.id, right.id])]) := by
  cases left with
  | unset => exact recordedLeft.elim
  | literal value => exact recordedLeft.elim
  | bound first =>
      cases right with
      | unset => exact recordedRight.elim
      | literal value => exact recordedRight.elim
      | bound second =>
          refine runOn_apply_of_backward isOpen (by cases operator <;> decide)
            (by simp) ?_
          intro id member
          rcases List.mem_pair.mp member with same | same <;> cases same
          · exact recordedLeft
          · exact recordedRight

end Recording

namespace Dual

open Recording

variable {session : Session}

/-- What a seeded dual number appends: the value, a zero for each partial, a one, and the
assignment of the one to the slot. -/
def seededNodes (start : Nat) (value : Float) (slot dims : Nat) : List Node :=
  Graph.literalNodes start (value :: List.replicate dims 0.0 ++ [1.0]) ++
    [⟨(start + dims + 2 : Nat), .assignment, (start + 1 + slot : Nat), 0.0, "",
      [(start + dims + 1 : Nat)]⟩]

theorem length_seededNodes (start : Nat) (value : Float) (slot dims : Nat) :
    (seededNodes start value slot dims).length = dims + 3 := by
  simp [seededNodes, Graph.literalNodes]

theorem runOn_zeros (isOpen : session.IsOpen) (count : Nat) :
    ((List.replicate count (Handle.literal 0.0)).mapM (Recording.assign .unset)).runOn
      session =
        (.ok (consecutive session.graph.size count),
          session.withLiterals (List.replicate count 0.0)) := by
  induction count generalizing session with
  | zero => simp [consecutive, Session.withLiterals]
  | succ count induction =>
      have reached : (session.withLiterals [0.0]).graph.size = session.graph.size + 1 :=
        session.size_withLiterals [0.0]
      rw [List.replicate_succ, List.mapM_cons, assign_unset_literal,
        runOn_bind_of_ok (runOn_constant isOpen 0.0),
        runOn_bind_of_ok (induction (isOpen.withLiterals [0.0])), runOn_pure, reached,
        ← Session.withLiterals_append]
      rfl

theorem runOn_constant_layout (isOpen : session.IsOpen) (value : Float) {dims : Nat}
    (inRange : dims ≤ maximalDims) :
    (constant value dims).runOn session =
      (.ok (of (.bound session.graph.size) (consecutive (session.graph.size + 1) dims)),
        session.withLiterals (value :: List.replicate dims 0.0)) := by
  have reached : (session.withLiterals [value]).graph.size = session.graph.size + 1 :=
    session.size_withLiterals [value]
  unfold constant
  rw [assign_unset_literal, runOn_bind_of_ok (Recording.runOn_constant isOpen value),
    zeroPartials_of_nat inRange, runOn_map, runOn_zeros (isOpen.withLiterals [value]),
    reached, ← Session.withLiterals_append]
  rfl

theorem runOn_seeded (isOpen : session.IsOpen) (value : Float) {slot dims : Nat}
    (inside : slot < dims) (inRange : dims ≤ maximalDims) :
    (seeded value slot dims).runOn session =
      (.ok (of (.bound session.graph.size) (consecutive (session.graph.size + 1) dims)),
        session.withNodes (seededNodes session.graph.size value slot dims)) := by
  have opened := isOpen.withLiterals (value :: List.replicate dims 0.0)
  have reached : (session.withLiterals (value :: List.replicate dims 0.0)).graph.size =
      session.graph.size + dims + 1 := by
    rw [Session.size_withLiterals, List.length_cons, List.length_replicate, Nat.add_assoc]
  have found : (consecutive (session.graph.size + 1) dims)[slot]? =
      some (.bound (session.graph.size + 1 + slot : Nat)) := by
    simp [consecutive, inside]
  have targeted : NodeId.precedes (session.graph.size + 1 + slot : Nat)
      (session.withLiterals (value :: List.replicate dims 0.0)).graph.size = true := by
    rw [reached, NodeId.precedes_natCast]
    omega
  have assigned := runOn_assign_literal opened 1.0 targeted
  unfold seeded
  rw [if_neg (by omega), runOn_bind_of_ok (runOn_constant_layout isOpen value inRange)]
  refine (runOn_seed found assigned).trans ?_
  rw [← Session.withLiterals_append, reached, Session.withLiterals_eq_withNodes,
    ← Session.withNodes_append]
  rfl

/-- Too long a list of partials is refused only after the value has been recorded. -/
theorem runOn_seeded_of_large (isOpen : session.IsOpen) (value : Float) {slot dims : Nat}
    (inside : slot < dims) (large : maximalDims < dims) :
    (seeded value slot dims).runOn session =
      (.error .dimsOutOfRange, session.withLiterals [value]) := by
  unfold seeded constant
  rw [if_neg (by omega), assign_unset_literal, runOn_bind,
    runOn_bind_of_ok (Recording.runOn_constant isOpen value), zeroPartials_of_large large]
  rfl

/-- The product rule in one slot. -/
def slotProduct (left right : Dual) : Handle × Handle → Recording Handle
  | (first, second) => do
      let outer ← Recording.binary .mul left.primal second
      let inner ← Recording.binary .mul first right.primal
      Recording.binary .add outer inner

/-- The cross terms of one slot, and their sum. -/
def crossTerms (start : Nat) (left right : Dual) : Handle × Handle → List Node
  | (first, second) =>
      [Graph.placedAt start (operation .binary "*" [left.primal.id, second.id]),
        Graph.placedAt (start + 1) (operation .binary "*" [first.id, right.primal.id]),
        Graph.placedAt (start + 2) (operation .binary "+" [start, (start + 1 : Nat)])]

/-- What a product appends: the product of the primals, and three nodes for each slot. -/
def productNodes (start : Nat) (left right : Dual) : List Node :=
  Graph.placedAt start (operation .binary "*" [left.primal.id, right.primal.id]) ::
    (left.partials.zip right.partials).zipIdx.flatMap fun (pair, k) =>
      crossTerms (start + 3 * k + 1) left right pair

theorem length_productNodes (start : Nat) {left right : Dual}
    (same : left.dims = right.dims) :
    (productNodes start left right).length = 3 * left.dims + 1 := by
  have each : ∀ entry ∈ (left.partials.zip right.partials).zipIdx,
      (crossTerms (start + 3 * entry.2 + 1) left right entry.1).length = 3 :=
    fun _ _ => rfl
  rw [productNodes, List.length_cons, List.length_flatMap, List.map_congr_left each,
    List.map_const', List.sum_replicate_nat, List.length_zipIdx, length_zip_partials same,
    Nat.mul_comm]

theorem runOn_slotProduct {left right : Dual} {first second : Handle}
    (isOpen : session.IsOpen) (recordedLeft : left.primal.IsRecorded session.graph)
    (recordedRight : right.primal.IsRecorded session.graph)
    (recordedFirst : first.IsRecorded session.graph)
    (recordedSecond : second.IsRecorded session.graph) :
    (slotProduct left right (first, second)).runOn session =
      (.ok (.bound (session.graph.size + 2 : Nat)),
        session.withNodes (crossTerms session.graph.size left right
          (first, second))) := by
  have grown := session.size_le_withNodes
  unfold slotProduct
  rw [runOn_bind_of_ok (runOn_binary_of_recorded .mul isOpen recordedLeft recordedSecond),
    runOn_bind_of_ok (runOn_binary_of_recorded .mul (isOpen.withNodes _)
      (recordedFirst.mono (grown _)) (recordedRight.mono (grown _))),
    runOn_binary_of_recorded .add ((isOpen.withNodes _).withNodes _)]
  · simp only [Session.size_withNodes, ← Session.withNodes_append]
    rfl
  · exact (session.isRecorded_withNodes _).mono (Session.size_le_withNodes _ _)
  · exact Session.isRecorded_withNodes _ _

/-- The slots are recorded one after the other, three nodes for each. -/
theorem runOn_slotProducts {left right : Dual} {pairs : List (Handle × Handle)}
    {start index : Nat} (isOpen : session.IsOpen)
    (reached : session.graph.size = start + 3 * index)
    (recordedLeft : left.primal.IsRecorded session.graph)
    (recordedRight : right.primal.IsRecorded session.graph)
    (recorded : ∀ pair ∈ pairs,
      pair.1.IsRecorded session.graph ∧ pair.2.IsRecorded session.graph) :
    (pairs.mapM (slotProduct left right)).runOn session =
      (.ok ((List.range' index pairs.length).map fun k =>
        .bound (start + 3 * k + 2 : Nat)),
        session.withNodes ((pairs.zipIdx index).flatMap fun (pair, k) =>
          crossTerms (start + 3 * k) left right pair)) := by
  induction pairs generalizing session index with
  | nil => simp
  | cons pair pairs induction =>
      obtain ⟨first, second⟩ := pair
      obtain ⟨one, others⟩ := List.forall_mem_cons.mp recorded
      have grown := Session.size_withNodes session
        (crossTerms session.graph.size left right (first, second))
      have size_le := session.size_le_withNodes
        (crossTerms session.graph.size left right (first, second))
      rw [List.mapM_cons, runOn_bind_of_ok
        (runOn_slotProduct isOpen recordedLeft recordedRight one.1 one.2)]
      have next : session.graph.size + 3 = start + 3 * (index + 1) := by omega
      have rest := induction (isOpen.withNodes _) (grown.trans next)
        (recordedLeft.mono size_le) (recordedRight.mono size_le) fun pair member =>
          ⟨(others pair member).1.mono size_le, (others pair member).2.mono size_le⟩
      rw [runOn_bind_of_ok rest, runOn_pure, ← Session.withNodes_append, reached]
      rfl

theorem mul_eq {left right : Dual} (same : left.dims = right.dims) :
    left.mul right = Recording.binary .mul left.primal right.primal >>= fun primal =>
      of primal <$> (left.partials.zip right.partials).mapM (slotProduct left right) := by
  unfold mul
  rw [demandEqualDims_of_eq _ same, pure_bind]
  rfl

theorem runOn_mul {left right : Dual} (isOpen : session.IsOpen)
    (same : left.dims = right.dims)
    (recorded : ∀ handle ∈ left.handles ++ right.handles,
      handle.IsRecorded session.graph) :
    (left.mul right).runOn session =
      (.ok (of (.bound session.graph.size) ((List.range left.dims).map fun k =>
          .bound (session.graph.size + 3 * k + 3 : Nat))),
        session.withNodes (productNodes session.graph.size left right)) := by
  obtain ⟨recordedLeft, recordedRight⟩ := List.forall_mem_append.mp recorded
  obtain ⟨primalLeft, slotsLeft⟩ := List.forall_mem_cons.mp recordedLeft
  obtain ⟨primalRight, slotsRight⟩ := List.forall_mem_cons.mp recordedRight
  have primal := runOn_binary_of_recorded .mul isOpen primalLeft primalRight
  have grown := Session.size_withNodes session [Graph.placedAt session.graph.size
    (operation BinaryOperator.mul.kind BinaryOperator.mul.symbol
      [left.primal.id, right.primal.id])]
  have size_le := Nat.le.intro grown.symm
  have slots := @runOn_slotProducts _ left right (left.partials.zip right.partials)
    (session.graph.size + 1) 0 (isOpen.withNodes _) grown
    (primalLeft.mono size_le) (primalRight.mono size_le) fun pair member =>
      ⟨(slotsLeft _ (List.of_mem_zip member).1).mono size_le,
        (slotsRight _ (List.of_mem_zip member).2).mono size_le⟩
  rw [length_zip_partials same, ← List.range_eq_range',
    ← Session.withNodes_append] at slots
  rw [mul_eq same, runOn_bind_of_ok primal, runOn_map, slots]
  simp only [Nat.add_right_comm session.graph.size 1]
  rfl

/-- The operations that renew the primal and every partial. -/
inductive Operation where
  | unary (operation : UnaryOperation) (dual : Dual)
  | binary (operation : BinaryOperation) (left right : Dual)
  | scale (dual : Dual) (factor : Handle)

namespace Operation

def step : Operation → Recording Dual
  | unary operation dual => operation.apply dual
  | binary operation left right => operation.apply left right
  | scale dual factor => dual.scale factor

def operands : Operation → List Dual
  | unary _ dual | scale dual _ => [dual]
  | binary _ left right => [left, right]

def handles : Operation → List Handle
  | unary _ dual => dual.handles
  | binary _ left right => left.handles ++ right.handles
  | scale dual factor => factor :: dual.handles

end Operation

theorem offers_of_within {dual : Dual} {graph : Graph}
    (set : ∀ handle ∈ dual.handles, handle.isSet = true ∧ handle.Within graph.size) :
    dual.Offers Interpretation.indifferent graph dual.dims () := by
  have readable := fun handle member =>
    Handle.denotes_of_within (set handle member).1 (set handle member).2
  obtain ⟨primal, partials⟩ := List.forall_mem_cons.mp readable
  exact ⟨rfl, primal, fun handle member => ⟨(), partials handle member⟩⟩

theorem Operation.exists_runOn {operation : Operation} {count : Nat}
    (isOpen : session.IsOpen) (dims_eq : ∀ dual ∈ operation.operands, dual.dims = count)
    (set : ∀ handle ∈ operation.handles,
      handle.isSet = true ∧ handle.Within session.graph.size) :
    ∃ dual after, operation.step.runOn session = (.ok dual, after) ∧
      dual.LaidOut count session.graph.size after.graph.size := by
  cases operation with
  | unary operation dual =>
      obtain ⟨result, after, ran, -, -⟩ :=
        yields_unary_renewed operation isOpen (offers_of_within set)
      have laid := (operation.gives_apply dual ran).2
      rw [dims_eq dual (.head _)] at laid
      exact ⟨result, after, ran, laid⟩
  | binary operation left right =>
      obtain ⟨setLeft, setRight⟩ := List.forall_mem_append.mp set
      have offersRight := offers_of_within setRight
      have sameLeft := dims_eq left (.head _)
      rw [dims_eq right (.tail _ (.head _)), ← sameLeft] at offersRight
      obtain ⟨result, after, ran, -, -⟩ :=
        yields_binary_renewed operation isOpen (offers_of_within setLeft) offersRight
      have laid := (operation.gives_apply left right ran).2
      rw [sameLeft] at laid
      exact ⟨result, after, ran, laid⟩
  | scale dual factor =>
      obtain ⟨⟨setFactor, within⟩, setDual⟩ := List.forall_mem_cons.mp set
      obtain ⟨result, after, ran, -, -⟩ := yields_scale_renewed isOpen
        (Handle.denotes_of_within setFactor within) (offers_of_within setDual)
      have laid := (gives_scale dual factor ran).2
      rw [dims_eq dual (.head _)] at laid
      exact ⟨result, after, ran, laid⟩

theorem LaidOut.exists_ids {count lower upper : Nat} {dual : Dual}
    (laid : dual.LaidOut count lower upper) :
    ∃ ids : List Nat, dual.handles = ids.map (fun id : Nat => .bound id) ∧
      ids.length = count + 1 ∧ ids.Pairwise (· < ·) ∧
      (∀ id ∈ ids, lower ≤ id ∧ id < upper) ∧
      (0 < count → ids.getLast? = some (upper - 1)) := by
  obtain ⟨ids, same, ordered, inside⟩ := laid.ascending.exists_ids
  refine ⟨ids, same, ?_, ordered, inside, fun positive => ?_⟩
  · have length := congrArg List.length same
    rw [List.length_map] at length
    rw [← length, ← laid.dims_eq]
    rfl
  · have nonempty : dual.partials ≠ [] := by
      rw [← List.length_pos_iff]
      exact positive.trans_eq laid.dims_eq.symm
    have found := List.getLast?_eq_some_getLast nonempty
    obtain ⟨place, latest, -, rfl⟩ := laid.last _ found
    have last : dual.handles.getLast? = some (.bound place) := by
      rw [handles, List.getLast?_cons, found, latest]
      rfl
    rw [same, List.getLast?_map] at last
    obtain ⟨id, foundId, named⟩ := Option.map_eq_some_iff.mp last
    cases named
    exact foundId

/-- A seeded dual number with `n` partials appends `n + 3` nodes, and with too many
partials only its value.  A product of recorded dual numbers appends `3 n + 1` nodes, the
product of the primals first and the sum of the cross terms of a slot right after them.
Whatever an operation gives for dual numbers of which every handle is a literal or names a
node is made of new nodes, in the order primal and partials, and the last partial is the
last node. -/
theorem recorded_layout {session : Session} (isOpen : session.IsOpen) :
    let start := session.graph.size
    (∀ (value : Float) (slot dims : Nat), slot < dims →
      (dims ≤ maximalDims →
        (seeded value slot dims).runOn session =
          (.ok (of (.bound start) (consecutive (start + 1) dims)),
            session.withNodes (seededNodes start value slot dims)) ∧
        (seededNodes start value slot dims).length = dims + 3) ∧
      (maximalDims < dims →
        (seeded value slot dims).runOn session =
          (.error .dimsOutOfRange, session.withNodes
            (Graph.literalNodes start [value])))) ∧
    (∀ left right : Dual, left.dims = right.dims →
      (∀ handle ∈ left.handles ++ right.handles, handle.IsRecorded session.graph) →
      (left.mul right).runOn session =
        (.ok (of (.bound start) ((List.range left.dims).map fun k =>
            .bound (start + 3 * k + 3 : Nat))),
          session.withNodes (productNodes start left right)) ∧
      (productNodes start left right).length = 3 * left.dims + 1) ∧
    (∀ (operation : Operation) (count : Nat),
      (∀ dual ∈ operation.operands, dual.dims = count) →
      (∀ handle ∈ operation.handles, handle.isSet = true ∧ handle.Within start) →
      ∃ dual after, operation.step.runOn session = (.ok dual, after) ∧
        ∃ ids : List Nat, dual.handles = ids.map (fun id : Nat => .bound id) ∧
          ids.length = count + 1 ∧ ids.Pairwise (· < ·) ∧
          (∀ id ∈ ids, start ≤ id ∧ id < after.graph.size) ∧
          (0 < count → ids.getLast? = some (after.graph.size - 1))) := by
  intro start
  refine ⟨fun value slot dims inside => ⟨fun inRange => ?_, fun large => ?_⟩,
    fun left right same recorded => ?_, fun operation count dims_eq set => ?_⟩
  · exact ⟨runOn_seeded isOpen value inside inRange,
      length_seededNodes start value slot dims⟩
  · exact runOn_seeded_of_large isOpen value inside large
  · exact ⟨runOn_mul isOpen same recorded, length_productNodes start same⟩
  · obtain ⟨dual, after, ran, laid⟩ := Operation.exists_runOn isOpen dims_eq set
    exact ⟨dual, after, ran, laid.exists_ids⟩

/-- Two nodes are there, and the operation reads both of them as well as literals. -/
theorem small_recorded_layout :
    let session := (Session.fresh "s").withLiterals [2.0, 0.5]
    let x := of (.bound 0) [.bound 1]
    let y := of (.literal 5.0) [.bound 1, .literal 0.0]
    session.IsOpen ∧
      (seeded 3.0 1 2).runOn session =
        (.ok (of (.bound 2) [.bound 3, .bound 4]),
          session.withNodes (Graph.literalNodes 2 [3.0, 0.0, 0.0, 1.0] ++
            [⟨6, .assignment, 4, 0.0, "", [5]⟩])) ∧
      (x.mul x).runOn session =
        (.ok (of (.bound 2) [.bound 5]),
          session.withNodes [⟨2, .binary, 2, 0.0, "*", [0, 0]⟩,
            ⟨3, .binary, 3, 0.0, "*", [0, 1]⟩, ⟨4, .binary, 4, 0.0, "*", [1, 0]⟩,
            ⟨5, .binary, 5, 0.0, "+", [3, 4]⟩]) ∧
      ∃ dual after, y.log.runOn session = (.ok dual, after) ∧
        ∃ ids : List Nat, dual.handles = ids.map (fun id : Nat => .bound id) ∧
          ids.length = 3 ∧ ids.Pairwise (· < ·) ∧
          ids.getLast? = some (after.graph.size - 1) := by
  intro session x y
  have isOpen : session.IsOpen := ⟨rfl, rfl⟩
  obtain ⟨seeding, product, operations⟩ := recorded_layout isOpen
  have recorded : ∀ handle ∈ x.handles ++ x.handles, handle.IsRecorded session.graph := by
    simp only [x, handles_of, List.forall_mem_append, List.forall_mem_cons]
    exact ⟨⟨rfl, rfl, by simp⟩, rfl, rfl, by simp⟩
  have set : ∀ handle ∈ y.handles,
      handle.isSet = true ∧ handle.Within session.graph.size := by
    simp only [y, handles_of, List.forall_mem_cons]
    exact ⟨⟨rfl, trivial⟩, ⟨rfl, rfl⟩, ⟨rfl, trivial⟩, by simp⟩
  refine ⟨isOpen, ((seeding 3.0 1 2 (by decide)).1 (by decide)).1,
    (product x x rfl recorded).1, ?_⟩
  obtain ⟨dual, after, ran, ids, named, length, ordered, -, last⟩ :=
    operations (.unary .log y) 2 (by simp [Operation.operands, y]) set
  exact ⟨dual, after, ran, ids, named, length, ordered, last (by decide)⟩

/-- The value is all that is recorded when the list of partials is too long to exist. -/
theorem seeding_not_always_recorded :
    ¬ ∀ (session : Session) (value : Float) (slot dims : Nat), session.IsOpen →
      slot < dims →
      ∃ dual after, (seeded value slot dims).runOn session = (.ok dual, after) ∧
        after.graph.size = session.graph.size + (dims + 3) := by
  intro always
  have isOpen : (Session.fresh "s").IsOpen := ⟨rfl, rfl⟩
  obtain ⟨dual, after, ran, -⟩ :=
    always (.fresh "s") 1.0 0 0x1000000000000 isOpen (by decide)
  rw [runOn_seeded_of_large isOpen 1.0 (by decide) (by decide)] at ran
  cases ran

end Dual

end CostTape
