import CostTape.Proofs.Dual.Growth
import CostTape.Proofs.Recording.Denotation

/-! Which slots recording steps give: an operation gives the slot of a node that it has
just recorded, and an operation on dual numbers gives such slots in ascending order, the
primal first. -/

namespace CostTape

namespace Handle

/-- The handle names a node recorded while the trace grew from one size to another. -/
def IsNew (lower upper : Nat) (handle : Handle) : Prop :=
  ∃ place : Nat, handle = .bound place ∧ lower ≤ place ∧ place < upper

/-- The handle names the node that was recorded last. -/
def IsLatest (lower upper : Nat) (handle : Handle) : Prop :=
  ∃ place : Nat, handle = .bound place ∧ lower ≤ place ∧ place + 1 = upper

/-- If the handle names a node at all, it is one of the first `size` nodes. -/
def Within (size : Nat) : Handle → Prop
  | bound id => id.precedes size = true
  | _ => True

/-- What a destination holds after an assignment, unless the source is first recorded. -/
def settled : Handle → Handle → Handle
  | bound id, _ => bound id
  | _, source => source

/-- The handle is what an assignment makes of a destination. -/
def Settles (destination source : Handle) (lower upper : Nat) (given : Handle) : Prop :=
  given = destination.settled source ∨
    ((∃ value, destination.settled source = .literal value) ∧ given.IsNew lower upper)

theorem settled_eq (destination source : Handle) :
    destination.settled source = destination ∨ destination.settled source = source := by
  cases destination with
  | bound id => exact .inl rfl
  | unset => exact .inr rfl
  | literal value => exact .inr rfl

theorem Within.mono {handle : Handle} {size larger : Nat} (size_le : size ≤ larger)
    (within : handle.Within size) : handle.Within larger := by
  cases handle with
  | bound id => exact NodeId.precedes_mono size_le within
  | unset => trivial
  | literal value => trivial

theorem IsNew.within {handle : Handle} {lower upper : Nat}
    (new : handle.IsNew lower upper) : handle.Within upper := by
  obtain ⟨place, rfl, -, below⟩ := new
  exact NodeId.precedes_natCast.mpr below

theorem IsNew.not_within {handle : Handle} {lower upper : Nat}
    (new : handle.IsNew lower upper) : ¬handle.Within lower := by
  obtain ⟨place, rfl, above, -⟩ := new
  intro within
  have below := NodeId.precedes_natCast.mp within
  omega

theorem IsNew.mono {handle : Handle} {lower lower' upper upper' : Nat}
    (lower_le : lower' ≤ lower) (upper_le : upper ≤ upper')
    (new : handle.IsNew lower upper) : handle.IsNew lower' upper' := by
  obtain ⟨place, rfl, above, below⟩ := new
  exact ⟨place, rfl, by omega, by omega⟩

theorem IsLatest.isNew {handle : Handle} {lower upper : Nat}
    (latest : handle.IsLatest lower upper) : handle.IsNew lower upper := by
  obtain ⟨place, rfl, above, rfl⟩ := latest
  exact ⟨place, rfl, above, Nat.lt_succ_self place⟩

theorem IsLatest.mono {handle : Handle} {lower middle upper : Nat}
    (lower_le : lower ≤ middle) (latest : handle.IsLatest middle upper) :
    handle.IsLatest lower upper := by
  obtain ⟨place, rfl, above, below⟩ := latest
  exact ⟨place, rfl, Nat.le_trans lower_le above, below⟩

theorem Within.settled {destination source : Handle} {size : Nat}
    (destinationWithin : destination.Within size) (sourceWithin : source.Within size) :
    (destination.settled source).Within size := by
  obtain same | same := destination.settled_eq source <;> rw [same]
  · exact destinationWithin
  · exact sourceWithin

namespace Settles

variable {destination source given : Handle} {lower upper : Nat}

theorem mono {lower' upper' : Nat} (lower_le : lower' ≤ lower) (upper_le : upper ≤ upper')
    (settles : destination.Settles source lower upper given) :
    destination.Settles source lower' upper' given :=
  settles.imp_right fun ⟨unrecorded, new⟩ => ⟨unrecorded, new.mono lower_le upper_le⟩

theorem eq_of_bound {id : NodeId}
    (settles : (bound id).Settles source lower upper given) : given = .bound id := by
  obtain same | ⟨⟨_, absurd⟩, -⟩ := settles
  · exact same
  · cases absurd

theorem within (settles : destination.Settles source lower upper given)
    (lower_le : lower ≤ upper) (destinationWithin : destination.Within lower)
    (sourceWithin : source.Within lower) : given.Within upper := by
  obtain rfl | ⟨-, new⟩ := settles
  · exact (destinationWithin.settled sourceWithin).mono lower_le
  · exact new.within

theorem origin (settles : destination.Settles source lower upper given) :
    given = destination ∨ given = source ∨
      ((∃ value, source = .literal value) ∧ given.IsNew lower upper) := by
  obtain rfl | ⟨⟨value, unrecorded⟩, new⟩ := settles
  · exact (destination.settled_eq source).imp_right .inl
  · cases destination with
    | bound id => cases unrecorded
    | unset => exact .inr (.inr ⟨⟨value, unrecorded⟩, new⟩)
    | literal _ => exact .inr (.inr ⟨⟨value, unrecorded⟩, new⟩)

end Settles

end Handle

/-- The handles name different nodes below `upper`, in the order in which these were
recorded. -/
inductive Ascending (upper : Nat) : Nat → List Handle → Prop
  | nil {lower : Nat} (ordered : lower ≤ upper) : Ascending upper lower []
  | cons {lower place : Nat} {handles : List Handle} (above : lower ≤ place)
      (rest : Ascending upper (place + 1) handles) :
      Ascending upper lower (.bound place :: handles)

namespace Ascending

variable {lower upper : Nat} {handles : List Handle}

theorem weaken {middle : Nat} (lower_le : lower ≤ middle)
    (ascending : Ascending upper middle handles) : Ascending upper lower handles := by
  cases ascending with
  | nil ordered => exact .nil (by omega)
  | cons above rest => exact .cons (by omega) rest

theorem cons_new {middle : Nat} {handle : Handle} (new : handle.IsNew lower middle)
    (rest : Ascending upper middle handles) :
    Ascending upper lower (handle :: handles) := by
  obtain ⟨place, rfl, above, below⟩ := new
  exact .cons above (rest.weaken below)

theorem tail {handle : Handle} (ascending : Ascending upper lower (handle :: handles)) :
    Ascending upper lower handles := by
  cases ascending with
  | cons above rest => exact rest.weaken (by omega)

theorem widen {larger : Nat} (upper_le : upper ≤ larger)
    (ascending : Ascending upper lower handles) : Ascending larger lower handles := by
  induction ascending with
  | nil ordered => exact .nil (Nat.le_trans ordered upper_le)
  | cons above _ induction => exact .cons above induction

theorem lower_le (ascending : Ascending upper lower handles) : lower ≤ upper := by
  induction ascending with
  | nil ordered => exact ordered
  | cons above _ induction => omega

theorem isNew (ascending : Ascending upper lower handles) {handle : Handle}
    (member : handle ∈ handles) : handle.IsNew lower upper := by
  induction ascending with
  | nil _ => cases member
  | cons above rest induction =>
      cases member with
      | head => exact ⟨_, rfl, above, rest.lower_le⟩
      | tail _ later => exact (induction later).mono (by omega) (Nat.le_refl _)

theorem nodup (ascending : Ascending upper lower handles) : handles.Nodup := by
  induction ascending with
  | nil _ => exact List.nodup_nil
  | cons _ rest induction =>
      refine List.nodup_cons.mpr ⟨fun repeated => ?_, induction⟩
      obtain ⟨place, same, above, -⟩ := rest.isNew repeated
      cases same
      omega

end Ascending

/-- The handles ascend, and nothing was recorded after what the last one names. -/
inductive Trailing (upper : Nat) : Nat → List Handle → Prop
  | nil : Trailing upper upper []
  | cons {lower place : Nat} {handles : List Handle} (above : lower ≤ place)
      (rest : Trailing upper (place + 1) handles) :
      Trailing upper lower (.bound place :: handles)

namespace Trailing

variable {lower upper : Nat} {handles : List Handle}

theorem ascending (trailing : Trailing upper lower handles) :
    Ascending upper lower handles := by
  induction trailing with
  | nil => exact .nil (Nat.le_refl _)
  | cons above _ induction => exact .cons above induction

theorem getLast?_eq (trailing : Trailing upper lower handles) {last : Handle}
    (found : handles.getLast? = some last) : last.IsLatest lower upper := by
  induction trailing with
  | nil => cases found
  | cons above rest induction =>
      cases rest with
      | nil =>
          cases found
          exact ⟨_, rfl, above, rfl⟩
      | cons further rest =>
          rw [List.getLast?_cons_cons] at found
          exact (induction found).mono (by omega)

end Trailing

namespace Recording

/-- Where the step succeeds, the condition relates the sizes of the trace before and after
it to what it gives. -/
def Gives (step : Recording α) (condition : Nat → Nat → α → Prop) : Prop :=
  ∀ ⦃session after : Session⦄ ⦃result : α⦄, step.runOn session = (.ok result, after) →
    session.graph.size ≤ after.graph.size ∧
      condition session.graph.size after.graph.size result

namespace Gives

variable {condition : Nat → Nat → α → Prop} {step : Recording α}

theorem pure {value : α} (holds : ∀ size, condition size size value) :
    (pure value : Recording α).Gives condition := by
  intro session after result succeeded
  cases succeeded
  exact ⟨Nat.le_refl _, holds _⟩

theorem throw (fault : RecordingFault) : (throw fault : Recording α).Gives condition := by
  intro session after result succeeded
  cases succeeded

theorem imp {weaker : Nat → Nat → α → Prop} (gives : step.Gives condition)
    (implies : ∀ ⦃lower upper : Nat⦄ ⦃value : α⦄, lower ≤ upper →
      condition lower upper value → weaker lower upper value) :
    step.Gives weaker := by
  intro session after result succeeded
  obtain ⟨size_le, holds⟩ := gives succeeded
  exact ⟨size_le, implies size_le holds⟩

theorem bind_exact {next : α → Recording β} {final : Nat → Nat → β → Prop}
    (first : step.Gives condition)
    (second : ∀ ⦃lower middle : Nat⦄ ⦃value : α⦄, lower ≤ middle →
      condition lower middle value →
      (next value).Gives fun start upper result => start = middle →
        final lower upper result) :
    (step >>= next).Gives final := by
  intro session after result succeeded
  obtain ⟨value, middle, ran, finished⟩ := runOn_bind_eq_ok_iff.mp succeeded
  obtain ⟨lower_le, given⟩ := first ran
  obtain ⟨upper_le, last⟩ := second lower_le given finished
  exact ⟨Nat.le_trans lower_le upper_le, last rfl⟩

theorem bind {next : α → Recording β} {final : Nat → Nat → β → Prop}
    (first : step.Gives condition)
    (second : ∀ ⦃lower middle : Nat⦄ ⦃value : α⦄, lower ≤ middle →
      condition lower middle value →
      (next value).Gives fun start upper result => middle ≤ start →
        final lower upper result) :
    (step >>= next).Gives final :=
  first.bind_exact fun _ _ _ lower_le given => (second lower_le given).imp
    fun _ _ _ _ last start => last (Nat.le_of_eq start.symm)

/-- What the last step records is the latest of the whole. -/
theorem latest_of_last {next : α → Recording Handle} (first : step.Gives condition)
    (second : ∀ value, (next value).Gives Handle.IsLatest) :
    (step >>= next).Gives Handle.IsLatest :=
  first.bind fun _ _ value lower_le _ => (second value).imp
    fun _ _ _ _ latest later => latest.mono (Nat.le_trans lower_le later)

/-- A step that comes first only makes the rest start later. -/
theorem precede {next : α → Recording β} {middle : Nat} {final : Nat → β → Prop}
    (first : step.Gives condition)
    (second : ∀ value, (next value).Gives fun start upper result =>
      middle ≤ start → final upper result) :
    (step >>= next).Gives fun start upper result => middle ≤ start → final upper result :=
  first.bind fun _ _ value lower_le _ => (second value).imp
    fun _ _ _ _ holds later start =>
      holds (Nat.le_trans start (Nat.le_trans lower_le later))

theorem map {convert : α → β} {final : Nat → Nat → β → Prop}
    (gives : step.Gives fun lower upper value => final lower upper (convert value)) :
    (convert <$> step).Gives final := by
  intro session after result succeeded
  rw [runOn_map] at succeeded
  rcases outcome : step.runOn session with ⟨fault | value, middle⟩ <;>
    rw [outcome] at succeeded <;> cases succeeded
  exact gives outcome

theorem of_appends {sort : Node → Prop} (appends : step.Appends sort) :
    step.Gives fun _ _ _ => True := by
  intro session after result succeeded
  have grown := appends session
  rw [succeeded] at grown
  exact ⟨grown.size_le, trivial⟩

theorem mapM {step : α → Recording Handle} {items : List α}
    (each : ∀ item ∈ items, (step item).Gives Handle.IsLatest) :
    (items.mapM step).Gives fun lower upper handles =>
      handles.length = items.length ∧ Trailing upper lower handles := by
  induction items with
  | nil => exact pure fun size => ⟨rfl, .nil⟩
  | cons item items induction =>
      obtain ⟨one, others⟩ := List.forall_mem_cons.mp each
      rw [List.mapM_cons]
      refine one.bind_exact fun lower middle handle _ latest => ?_
      refine (induction others).bind_exact fun start upper handles _ trails => ?_
      refine pure fun size finished started => ?_
      obtain ⟨place, rfl, above, rfl⟩ := latest
      subst finished started
      exact ⟨congrArg Nat.succ trails.1, .cons above trails.2⟩

end Gives

theorem gives_record (node : Node) :
    (record node).Gives fun lower upper id => id = lower ∧ lower + 1 = upper := by
  intro session after id succeeded
  rw [runOn_record] at succeeded
  split at succeeded
  · split at succeeded
    · rename_i graph accepted
      cases succeeded
      have grown := Graph.size_of_append accepted
      exact ⟨by show _ ≤ graph.size; omega, rfl, grown.symm⟩
    · cases succeeded
  · cases succeeded

theorem gives_recorded (node : Node) :
    (Handle.bound <$> record node).Gives Handle.IsLatest := by
  refine .map ((gives_record node).imp ?_)
  rintro lower upper id - ⟨rfl, below⟩
  exact ⟨lower, rfl, Nat.le_refl _, below⟩

theorem gives_constant (value : Float) : (constant value).Gives Handle.IsLatest :=
  gives_recorded _

theorem gives_apply (kind : Kind) (symbol : String) (operands : List Handle) :
    (apply kind symbol operands).Gives Handle.IsLatest :=
  .latest_of_last (.of_appends (.mapM operands appends_operand)) fun _ => gives_recorded _

theorem gives_materialize (handle : Handle) :
    (materialize handle).Gives (Handle.unset.Settles handle) := by
  cases handle with
  | unset => exact .map (.throw _)
  | bound id => exact .map (.pure fun _ => .inl rfl)
  | literal value =>
      refine .map (.map ((gives_constant value).imp ?_))
      intro lower upper handle _ latest
      obtain ⟨place, rfl, new⟩ := latest.isNew
      exact .inr ⟨⟨value, rfl⟩, place, rfl, new⟩

theorem assign_eq_materialize {destination : Handle} (source : Handle)
    (free : ∀ id, destination ≠ .bound id) :
    assign destination source = materialize source := by
  cases destination with
  | bound id => exact (free id rfl).elim
  | unset => exact (map_eq_pure_bind _ _).symm
  | literal value => exact (map_eq_pure_bind _ _).symm

theorem gives_assign (destination source : Handle) :
    (assign destination source).Gives (destination.Settles source) := by
  cases destination with
  | bound id =>
      refine (Gives.of_appends (appends_operand source)).bind fun _ _ arg _ _ => ?_
      refine (gives_record _).bind fun _ _ _ _ _ => ?_
      exact .pure fun _ _ _ => .inl rfl
  | unset =>
      rw [assign_eq_materialize source (by simp)]
      exact gives_materialize source
  | literal value =>
      rw [assign_eq_materialize source (by simp)]
      exact gives_materialize source

end Recording

namespace Dual

open Recording

/-- All that the dual number is made of, the primal first. -/
def handles (dual : Dual) : List Handle :=
  dual.primal :: dual.partials

@[simp] theorem handles_of (primal : Handle) (partials : List Handle) :
    (of primal partials).handles = primal :: partials := rfl

/-- The primal has index zero, and the partials follow. -/
def component (dual : Dual) (index : Nat) : Handle :=
  dual.handles[index]?.getD .unset

theorem component_eq {dual : Dual} {index : Nat} {handle : Handle}
    (found : dual.handles[index]? = some handle) : dual.component index = handle := by
  rw [component, found]
  rfl

/-- The dual number is made of nodes recorded while the trace grew from one size to
another, in the order primal and partials.  Nothing was recorded after the last
partial. -/
structure LaidOut (count lower upper : Nat) (dual : Dual) : Prop where
  slots_eq : dual.slots = some dual.partials
  dims_eq : dual.dims = count
  ascending : Ascending upper lower dual.handles
  last : ∀ handle, dual.partials.getLast? = some handle → handle.IsLatest lower upper

theorem LaidOut.weaken {count lower middle upper : Nat} {dual : Dual}
    (lower_le : lower ≤ middle) (laid : dual.LaidOut count middle upper) :
    dual.LaidOut count lower upper where
  slots_eq := laid.slots_eq
  dims_eq := laid.dims_eq
  ascending := laid.ascending.weaken lower_le
  last := fun handle found => (laid.last handle found).mono lower_le

theorem gives_zeroPartials (dims : Int) :
    (zeroPartials dims).Gives fun lower upper handles =>
      handles.length = dims.toNat ∧ Trailing upper lower handles := by
  unfold zeroPartials
  split
  · refine (Gives.mapM fun handle member => ?_).imp fun _ _ _ _ trails =>
      ⟨trails.1.trans List.length_replicate, trails.2⟩
    rw [List.eq_of_mem_replicate member, assign_unset_literal]
    exact Recording.gives_constant 0.0
  · exact .throw _

/-- A primal recorded before the partials comes first. -/
theorem gives_of {primal : Handle} {count lower middle : Nat}
    {step : Recording (List Handle)} (new : primal.IsNew lower middle)
    (trails : step.Gives fun lower upper handles =>
      handles.length = count ∧ Trailing upper lower handles) :
    (of primal <$> step).Gives fun start upper dual =>
      middle ≤ start → dual.LaidOut count lower upper := by
  refine .map (trails.imp ?_)
  rintro start upper handles - ⟨length, trailing⟩ reached
  have lower_le : lower ≤ start := by
    obtain ⟨place, -, above, below⟩ := new
    omega
  exact ⟨rfl, length, .cons_new new (trailing.ascending.weaken reached),
    fun handle found => (trailing.getLast?_eq found).mono lower_le⟩

theorem gives_constant (value : Float) (dims : Int) :
    (constant value dims).Gives fun lower upper dual =>
      dual.LaidOut dims.toNat lower upper := by
  unfold constant
  rw [assign_unset_literal]
  exact (Recording.gives_constant value).bind fun _ _ _ _ latest =>
    gives_of latest.isNew (gives_zeroPartials dims)

/-- Seeding overwrites a partial where it stands. -/
theorem gives_seed {dual : Dual} {lower middle : Nat} (slot : Nat)
    (ascending : Ascending middle lower dual.handles) :
    (dual.seed slot).Gives fun start upper seeded => middle ≤ start →
      seeded.slots = some seeded.partials ∧ Ascending upper lower seeded.handles := by
  unfold seed
  split
  · rename_i handle found
    obtain ⟨place, rfl, -, -⟩ := ascending.isNew (.tail _ (List.mem_of_getElem? found))
    refine (gives_assign (.bound place) _).bind fun start later given le settles => ?_
    refine .pure fun size within reached => ⟨rfl, ?_⟩
    have kept : dual.partials.set slot given = dual.partials := by
      obtain ⟨inside, same⟩ := List.getElem?_eq_some_iff.mp found
      rw [settles.eq_of_bound, ← same]
      exact List.set_getElem_self inside
    rw [handles_of, kept]
    exact ascending.widen (by omega)
  · exact .throw _

theorem gives_seeded (value : Float) (slot dims : Int) :
    (seeded value slot dims).Gives fun lower upper dual =>
      dual.slots = some dual.partials ∧ Ascending upper lower dual.handles := by
  unfold seeded
  split
  · exact .throw _
  · exact (gives_constant value dims).bind fun _ _ _ _ laid =>
      gives_seed slot.toNat laid.ascending

theorem gives_ofHandle (primal : Handle) (dims : Int) :
    (ofHandle primal dims).Gives fun lower upper dual =>
      dual.primal = primal ∧ dual.slots = some dual.partials ∧
        Ascending upper lower dual.partials :=
  .map ((gives_zeroPartials dims).imp fun _ _ _ _ trails =>
    ⟨rfl, rfl, trails.2.ascending⟩)

theorem gives_zipWith (operator : BinaryOperator) (left right : Dual) :
    (zipWith operator left right).Gives fun lower upper dual =>
      dual.LaidOut (left.partials.zip right.partials).length lower upper :=
  (gives_apply _ _ _).bind fun _ _ _ _ latest =>
    gives_of latest.isNew (.mapM fun _ _ => gives_apply _ _ _)

theorem gives_scale (dual : Dual) (factor : Handle) :
    (dual.scale factor).Gives fun lower upper result =>
      result.LaidOut dual.dims lower upper :=
  (gives_apply _ _ _).bind fun _ _ _ _ latest =>
    gives_of latest.isNew (.mapM fun _ _ => gives_apply _ _ _)

/-- A sum has the partials of the summand, but it does not keep the number of them if
there are none. -/
theorem gives_addScalar (dual : Dual) (scalar : Handle) :
    (dual.addScalar scalar).Gives fun lower upper sum =>
      sum.primal.IsNew lower upper ∧ sum.partials = dual.partials ∧
        (sum.slots = none ↔ dual.dims = 0) := by
  refine (gives_apply _ _ _).bind fun lower middle primal _ latest => ?_
  refine .pure fun size reached => ⟨latest.isNew.mono (Nat.le_refl _) reached, ?_⟩
  unfold dims
  cases partials : dual.partials with
  | nil => exact ⟨rfl, by simp⟩
  | cons slot slots => exact ⟨rfl, by simp⟩

theorem gives_chain {primal : Handle} {lower middle : Nat} (derivative : Handle)
    (inner : Dual) (new : primal.IsNew lower middle) :
    (chain primal derivative inner).Gives fun start upper dual =>
      middle ≤ start → dual.LaidOut inner.dims lower upper :=
  gives_of new (.mapM fun _ _ => gives_apply _ _ _)

theorem UnaryOperation.gives_apply (operation : UnaryOperation) (dual : Dual) :
    (operation.apply dual).Gives fun lower upper result =>
      result.LaidOut dual.dims lower upper := by
  cases operation with
  | neg =>
      exact (Recording.gives_apply _ _ _).bind fun _ _ _ _ latest =>
        gives_of latest.isNew (.mapM fun _ _ => Recording.gives_apply _ _ _)
  | sin =>
      exact (Recording.gives_apply _ _ _).bind fun _ _ _ _ latest =>
        (Recording.gives_apply _ _ _).precede fun derivative =>
          gives_chain derivative dual latest.isNew
  | cos =>
      exact (Recording.gives_apply _ _ _).bind fun _ _ _ _ latest =>
        (Recording.gives_apply _ _ _).precede fun _ =>
          (Recording.gives_apply _ _ _).precede fun derivative =>
            gives_chain derivative dual latest.isNew
  | sqrt =>
      exact (Recording.gives_apply _ _ _).bind fun _ _ _ _ latest =>
        (Recording.gives_apply _ _ _).precede fun _ =>
          (Recording.gives_apply _ _ _).precede fun derivative =>
            gives_chain derivative dual latest.isNew
  | exp =>
      exact (Recording.gives_apply _ _ _).bind fun _ _ primal _ latest =>
        gives_chain primal dual latest.isNew
  | log =>
      exact (Recording.gives_apply _ _ _).bind fun _ _ _ _ latest =>
        (Recording.gives_apply _ _ _).precede fun derivative =>
          gives_chain derivative dual latest.isNew

theorem lays_out_of_last {step : Recording α} {next : α → Recording Dual} {count : Nat}
    {condition : Nat → Nat → α → Prop} (first : step.Gives condition)
    (second : ∀ value, (next value).Gives fun lower upper dual =>
      dual.LaidOut count lower upper) :
    (step >>= next).Gives fun lower upper dual => dual.LaidOut count lower upper :=
  first.bind fun _ _ value lower_le _ => (second value).imp
    fun _ _ _ _ laid later => laid.weaken (Nat.le_trans lower_le later)

theorem gives_demandEqualDims (operation : String) (left right : Dual) :
    (demandEqualDims operation left right).Gives fun _ _ _ => left.dims = right.dims := by
  unfold demandEqualDims
  split
  next same => exact .pure fun _ => same
  next => exact .throw _

theorem length_zip_partials {left right : Dual} (same : left.dims = right.dims) :
    (left.partials.zip right.partials).length = left.dims := by
  rw [List.length_zip]
  exact Nat.min_eq_left (Nat.le_of_eq same)

/-- The slots of both dual numbers are used up. -/
theorem lays_out_of_pairs {step : Recording Dual} {operation : String} {left right : Dual}
    (lays : step.Gives fun lower upper dual =>
      dual.LaidOut (left.partials.zip right.partials).length lower upper) :
    (demandEqualDims operation left right >>= fun _ => step).Gives fun lower upper dual =>
      dual.LaidOut left.dims lower upper := by
  refine (gives_demandEqualDims operation left right).bind
    fun lower middle _ lower_le same => ?_
  refine lays.imp fun start upper dual _ laid reached => ?_
  rw [← length_zip_partials same]
  exact laid.weaken (Nat.le_trans lower_le reached)

theorem BinaryOperation.gives_apply (operation : BinaryOperation) (left right : Dual) :
    (operation.apply left right).Gives fun lower upper result =>
      result.LaidOut left.dims lower upper := by
  cases operation with
  | add => exact lays_out_of_pairs (gives_zipWith _ left right)
  | sub => exact lays_out_of_pairs (gives_zipWith _ left right)
  | mul =>
      apply lays_out_of_pairs
      refine (Recording.gives_apply _ _ _).bind fun _ _ _ _ latest =>
        gives_of latest.isNew (.mapM ?_)
      intro pair _
      exact .latest_of_last (Recording.gives_apply _ _ _) fun _ =>
        .latest_of_last (Recording.gives_apply _ _ _) fun _ => Recording.gives_apply _ _ _
  | div =>
      apply lays_out_of_pairs
      refine lays_out_of_last (Recording.gives_apply _ _ _) fun _ => ?_
      refine (Recording.gives_apply _ _ _).bind fun _ _ _ _ latest =>
        gives_of latest.isNew (.mapM ?_)
      intro pair _
      exact .latest_of_last (Recording.gives_apply _ _ _) fun _ =>
        .latest_of_last (Recording.gives_apply _ _ _) fun _ => Recording.gives_apply _ _ _

theorem size_le_assignEach (destinations sources : List Handle) (session : Session) :
    session.graph.size ≤ ((assignEach destinations sources).run session).2.graph.size :=
  (grows_assignEach .all destinations sources session).size_le

theorem length_assignEach (destinations sources : List Handle) (session : Session) :
    ((assignEach destinations sources).run session).1.1.length = destinations.length := by
  induction destinations generalizing sources session with
  | nil => cases sources <;> rfl
  | cons destination destinations induction =>
      cases sources with
      | nil => rfl
      | cons source sources =>
          rw [run_assignEach_cons]
          rcases (Recording.assign destination source).runOn session with
            ⟨fault | assigned, middle⟩
          · rfl
          · exact congrArg Nat.succ (induction sources middle)

/-- Whatever its outcome, an assignment leaves each destination as it is or settles it. -/
theorem getElem?_assignEach {destinations sources : List Handle} {session : Session}
    {index : Nat} {given : Handle}
    (found : ((assignEach destinations sources).run session).1.1[index]? = some given) :
    destinations[index]? = some given ∨
      ∃ destination source, destinations[index]? = some destination ∧
        sources[index]? = some source ∧
        destination.Settles source session.graph.size
          ((assignEach destinations sources).run session).2.graph.size given := by
  induction destinations generalizing sources session index with
  | nil => cases sources <;> exact .inl found
  | cons destination destinations induction =>
      cases sources with
      | nil => exact .inl found
      | cons source sources =>
          rw [run_assignEach_cons] at found ⊢
          rcases outcome : (Recording.assign destination source).runOn session with
            ⟨fault | assigned, middle⟩ <;> rw [outcome] at found
          · exact .inl found
          · obtain ⟨lower_le, settles⟩ := gives_assign destination source outcome
            have upper_le := size_le_assignEach destinations sources middle
            cases index with
            | zero =>
                cases found
                exact .inr ⟨destination, source, rfl, rfl,
                  settles.mono (Nat.le_refl _) upper_le⟩
            | succ index =>
                obtain kept | ⟨first, second, here, there, later⟩ := induction found
                · exact .inl kept
                · exact .inr ⟨first, second, here, there,
                    later.mono lower_le (Nat.le_refl _)⟩

/-- What an assignment to a dual number writes to, one handle for each of the source. -/
def targets (destination source : Dual) : List Handle :=
  destination.primal :: destination.slots.getD (List.replicate source.dims .unset)

theorem component_of_targets {destination source : Dual} {index : Nat} {handle : Handle}
    (found : (destination.targets source)[index]? = some handle) :
    destination.component index = handle := by
  obtain ⟨primal, none | slots⟩ := destination
  · cases index with
    | zero =>
        cases found
        rfl
    | succ index => exact (List.eq_of_mem_replicate (List.mem_of_getElem? found)).symm
  · exact component_eq found

/-- The number of partials is still open, or the same. -/
def Fits (destination source : Dual) : Prop :=
  destination.slots = none ∨ destination.dims = source.dims

theorem fits_iff {destination source : Dual} :
    destination.Fits source ↔
      (destination.slots.getD (List.replicate source.dims .unset)).length =
        source.dims := by
  obtain ⟨primal, none | slots⟩ := destination
  · simp [Fits]
  · simp [Fits, dims, partials]

theorem run_assign_of_not_fits {destination source : Dual}
    (misfit : ¬destination.Fits source) (session : Session) :
    (destination.assign source).run session =
      ((destination, .error (.unequalDims "assign" destination.dims source.dims)),
        session) := by
  rw [run_assign]
  simp only
  rw [if_pos (mt fits_iff.mpr misfit)]
  obtain ⟨primal, none | slots⟩ := destination
  · exact (misfit (.inl rfl)).elim
  · rfl

theorem exists_run_assign {destination source : Dual} (fits : destination.Fits source)
    (session : Session) :
    ∃ given, (destination.assign source).run session =
        ((given,
          ((assignEach (destination.targets source) source.handles).run session).1.2),
          ((assignEach (destination.targets source) source.handles).run session).2) ∧
      given.handles = ((assignEach (destination.targets source) source.handles).run
        session).1.1 := by
  rw [run_assign]
  simp only
  rw [if_neg (not_not.mpr (fits_iff.mp fits))]
  refine ⟨_, rfl, ?_⟩
  unfold targets handles
  rw [run_assignEach_cons]
  rcases (Recording.assign destination.primal source.primal).runOn session with
    ⟨fault | assigned, middle⟩ <;> rfl

/-- Where a component comes from after an assignment, whatever its outcome. -/
theorem origin_of_assign {destination source : Dual} {session : Session} {index : Nat}
    {handle : Handle}
    (found : ((destination.assign source).run session).1.1.handles[index]? =
      some handle) :
    handle = destination.component index ∨ handle = source.component index ∨
      ((∃ value, source.component index = .literal value) ∧
        handle.IsNew session.graph.size
          ((destination.assign source).run session).2.graph.size) := by
  by_cases fits : destination.Fits source
  · obtain ⟨given, ran, same⟩ := exists_run_assign fits session
    rw [ran] at found ⊢
    rw [same] at found
    obtain kept | ⟨first, second, here, there, settles⟩ := getElem?_assignEach found
    · exact .inl (component_of_targets kept).symm
    · rw [component_of_targets here, component_eq there]
      exact settles.origin
  · rw [run_assign_of_not_fits fits session] at found
    exact .inl (component_eq found).symm

theorem targets_of_component {destination : Dual} (source : Dual) {index : Nat}
    {id : NodeId} (named : destination.component index = .bound id) :
    (destination.targets source)[index]? = some (.bound id) := by
  have inHandles : destination.handles[index]? = some (.bound id) := by
    unfold component at named
    cases found : destination.handles[index]? with
    | none =>
        rw [found] at named
        cases named
    | some handle =>
        rw [found] at named
        exact congrArg some named
  obtain ⟨primal, none | slots⟩ := destination
  · cases index with
    | zero => exact inHandles
    | succ index => cases inHandles
  · exact inHandles

/-- A component that names a node goes on naming it. -/
theorem component_of_assign {destination : Dual} (source : Dual) (session : Session)
    {index : Nat} {id : NodeId} (named : destination.component index = .bound id) :
    ((destination.assign source).run session).1.1.component index = .bound id := by
  by_cases fits : destination.Fits source
  · obtain ⟨given, ran, same⟩ := exists_run_assign fits session
    have target := targets_of_component source named
    have inside : index < given.handles.length := by
      rw [same, length_assignEach]
      exact (List.getElem?_eq_some_iff.mp target).1
    obtain ⟨handle, found⟩ : ∃ handle, given.handles[index]? = some handle :=
      ⟨_, List.getElem?_eq_getElem inside⟩
    rw [ran, component_eq found]
    rw [same] at found
    obtain kept | ⟨_, source, here, -, settles⟩ := getElem?_assignEach found
    · exact Option.some.inj (kept.symm.trans target)
    · cases here.symm.trans target
      exact settles.eq_of_bound
  · rw [run_assign_of_not_fits fits session]
    exact named

end Dual

end CostTape
