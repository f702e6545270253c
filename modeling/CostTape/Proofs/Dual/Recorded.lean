import CostTape.Proofs.Dual.Differentiation
import CostTape.Proofs.Dual.Growth

/-! Operations on recorded dual numbers succeed, and what they give is recorded again.
Its primal is the operation on the primals, under any interpretation whatever. -/

namespace CostTape

universe u

/-- Tells no values apart, so that all that counts of a step is whether it succeeds. -/
def Interpretation.indifferent : Interpretation Unit :=
  ⟨fun _ => (), fun _ => (), fun _ => (), fun _ _ _ => ()⟩

/-- The handle names a node of the graph. -/
def Handle.IsRecorded (graph : Graph) : Handle → Prop
  | .bound id => id.precedes graph.size = true
  | _ => False

theorem Handle.IsRecorded.mono {graph later : Graph} {handle : Handle}
    (size_le : graph.size ≤ later.size) (recorded : handle.IsRecorded graph) :
    handle.IsRecorded later := by
  cases handle with
  | bound id => exact NodeId.precedes_mono size_le recorded
  | unset => exact recorded.elim
  | literal value => exact recorded.elim

/-- All that the dual number is made of names nodes of the graph. -/
structure Dual.IsRecorded (graph : Graph) (dual : Dual) : Prop where
  primal : dual.primal.IsRecorded graph
  slots_eq : dual.slots = some dual.partials
  partials : ∀ handle ∈ dual.partials, handle.IsRecorded graph
  dims_le : dual.dims ≤ Dual.maximalDims

namespace Dual.IsRecorded

variable {graph later : Graph} {dual : Dual}

theorem mono (size_le : graph.size ≤ later.size) (recorded : dual.IsRecorded graph) :
    dual.IsRecorded later where
  primal := recorded.primal.mono size_le
  slots_eq := recorded.slots_eq
  partials := fun handle member => (recorded.partials handle member).mono size_le
  dims_le := recorded.dims_le

theorem of_partials (recorded : dual.IsRecorded graph) :
    Dual.of dual.primal dual.partials = dual := by
  cases dual with
  | mk primal slots => exact congrArg (Dual.mk primal) recorded.slots_eq.symm

end Dual.IsRecorded

variable {V : Type u} (meaning : Interpretation V)

/-- The handle names a node of the graph whose slot holds the value. -/
structure Handle.Stores (graph : Graph) (handle : Handle) (value : V) : Prop where
  recorded : handle.IsRecorded graph
  denotes : handle.Denotes meaning graph value

/-- A recorded dual number of a certain length with the value as its primal. -/
structure Dual.Carries (graph : Graph) (dual : Dual) (count : Nat) (value : V) :
    Prop where
  recorded : dual.IsRecorded graph
  dims_eq : dual.dims = count
  primal : dual.primal.Denotes meaning graph value

def Handle.IsReadable (graph : Graph) (handle : Handle) : Prop :=
  ∃ value, handle.Denotes meaning graph value

/-- What an operation asks of a dual number.  Some of its handles may still be
literals. -/
structure Dual.Offers (graph : Graph) (dual : Dual) (count : Nat) (value : V) : Prop where
  dims_eq : dual.dims = count
  primal : dual.primal.Denotes meaning graph value
  partials : ∀ handle ∈ dual.partials, handle.IsReadable meaning graph

/-- What an operation makes of dual numbers, however many partials they have. -/
structure Dual.Renews (graph : Graph) (dual : Dual) (count : Nat) (value : V) : Prop where
  slots_eq : dual.slots = some dual.partials
  dims_eq : dual.dims = count
  primal : dual.primal.Stores meaning graph value
  partials : ∀ handle ∈ dual.partials, handle.IsRecorded graph

theorem Handle.IsRecorded.isReadable {graph : Graph} {handle : Handle}
    (recorded : handle.IsRecorded graph) : handle.IsReadable meaning graph := by
  cases handle with
  | bound id => exact ⟨_, recorded, rfl⟩
  | unset => exact recorded.elim
  | literal value => exact recorded.elim

variable {meaning}

theorem Handle.IsRecorded.denotes {graph : Graph} {handle : Handle}
    (recorded : handle.IsRecorded graph) :
    handle.Denotes Interpretation.indifferent graph () :=
  (recorded.isReadable .indifferent).elim fun _ denotes => denotes

theorem Handle.denotes_literal {graph : Graph} (value : Float) :
    (Handle.literal value).Denotes meaning graph (meaning.literal value) := rfl

theorem Dual.Carries.count_le {graph : Graph} {dual : Dual} {count : Nat} {value : V}
    (carries : dual.Carries meaning graph count value) : count ≤ maximalDims := by
  rw [← carries.dims_eq]
  exact carries.recorded.dims_le

theorem Dual.Carries.offers {graph : Graph} {dual : Dual} {count : Nat} {value : V}
    (carries : dual.Carries meaning graph count value) :
    dual.Offers meaning graph count value where
  dims_eq := carries.dims_eq
  primal := carries.primal
  partials := fun handle member =>
    (carries.recorded.partials handle member).isReadable meaning

theorem Dual.Renews.carries {graph : Graph} {dual : Dual} {count : Nat} {value : V}
    (renews : dual.Renews meaning graph count value) (count_le : count ≤ maximalDims) :
    dual.Carries meaning graph count value where
  recorded := ⟨renews.primal.recorded, renews.slots_eq, renews.partials, by
    rw [renews.dims_eq]
    exact count_le⟩
  dims_eq := renews.dims_eq
  primal := renews.primal.denotes

theorem Dual.IsRecorded.carries {graph : Graph} {dual : Dual}
    (recorded : dual.IsRecorded graph) :
    dual.Carries Interpretation.indifferent graph dual.dims () :=
  ⟨recorded, rfl, recorded.primal.denotes⟩

namespace Session.Extends

variable {before after : Session} (extended : before.Extends meaning after)

include extended

theorem stores {handle : Handle} {value : V}
    (stores : handle.Stores meaning before.graph value) :
    handle.Stores meaning after.graph value :=
  ⟨stores.recorded.mono extended.size_le, extended.denotes stores.denotes⟩

theorem isReadable {handle : Handle} (readable : handle.IsReadable meaning before.graph) :
    handle.IsReadable meaning after.graph :=
  readable.imp fun _ => extended.denotes

theorem carries {dual : Dual} {count : Nat} {value : V}
    (carries : dual.Carries meaning before.graph count value) :
    dual.Carries meaning after.graph count value :=
  ⟨carries.recorded.mono extended.size_le, carries.dims_eq,
    extended.denotes carries.primal⟩

theorem offers {dual : Dual} {count : Nat} {value : V}
    (offers : dual.Offers meaning before.graph count value) :
    dual.Offers meaning after.graph count value where
  dims_eq := offers.dims_eq
  primal := extended.denotes offers.primal
  partials := fun handle member => extended.isReadable (offers.partials handle member)

end Session.Extends

namespace Recording

variable {session : Session}

theorem Yields.stored {step : Recording NodeId} {value : V}
    (yields : (Handle.bound <$> step).Yields meaning session fun graph handle =>
      handle.Denotes meaning graph value) :
    (Handle.bound <$> step).Yields meaning session fun graph handle =>
      handle.Stores meaning graph value := by
  obtain ⟨handle, after, ran, extended, denotes⟩ := yields
  refine ⟨handle, after, ran, extended, ?_, denotes⟩
  rw [runOn_map] at ran
  rcases outcome : step.runOn session with ⟨fault | id, middle⟩ <;>
    rw [outcome] at ran <;> cases ran
  exact denotes.1

theorem apply_eq_map (kind : Kind) (symbol : String) (operands : List Handle) :
    apply kind symbol operands = Handle.bound <$> (operands.mapM operand >>= fun args =>
      record { Node.zero with kind, symbol, args }) :=
  (map_bind _ _ _).symm

theorem yields_apply_stored {kind : Kind} {symbol : String} {handles : List Handle}
    {values : List V} (isOpen : session.IsOpen) (computes : kind.isOperation = true)
    (denote : List.Forall₂ (Handle.Denotes meaning session.graph) handles values) :
    (apply kind symbol handles).Yields meaning session fun graph handle =>
      handle.Stores meaning graph (meaning.operation kind symbol values) := by
  have yields : (apply kind symbol handles).Yields meaning session fun graph handle =>
      handle.Denotes meaning graph (meaning.operation kind symbol values) :=
    yields_apply isOpen computes denote
  rw [apply_eq_map] at yields ⊢
  exact yields.stored

theorem yields_unary_stored (operator : UnaryOperator) {handle : Handle} {value : V}
    (isOpen : session.IsOpen) (denotes : handle.Denotes meaning session.graph value) :
    (unary operator handle).Yields meaning session fun graph handle =>
      handle.Stores meaning graph
        (meaning.operation operator.kind operator.symbol [value]) :=
  yields_apply_stored isOpen (by cases operator <;> rfl) (.cons denotes .nil)

theorem yields_binary_stored (operator : BinaryOperator) {left right : Handle}
    {first second : V} (isOpen : session.IsOpen)
    (denotesLeft : left.Denotes meaning session.graph first)
    (denotesRight : right.Denotes meaning session.graph second) :
    (binary operator left right).Yields meaning session fun graph handle =>
      handle.Stores meaning graph
        (meaning.operation operator.kind operator.symbol [first, second]) :=
  yields_apply_stored isOpen (by cases operator <;> rfl)
    (.cons denotesLeft (.cons denotesRight .nil))

theorem yields_binary_recorded (operator : BinaryOperator) {left right : Handle}
    (isOpen : session.IsOpen) (readableLeft : left.IsReadable meaning session.graph)
    (readableRight : right.IsReadable meaning session.graph) :
    (binary operator left right).Yields meaning session fun graph handle =>
      handle.IsRecorded graph := by
  obtain ⟨first, denotesLeft⟩ := readableLeft
  obtain ⟨second, denotesRight⟩ := readableRight
  exact (yields_binary_stored operator isOpen denotesLeft denotesRight).imp
    fun _ _ _ stored => stored.recorded

theorem yields_constant_stored (value : Float) (isOpen : session.IsOpen) :
    (constant value).Yields meaning session fun graph handle =>
      handle.Stores meaning graph (meaning.literal value) :=
  Yields.stored ((yields_constant isOpen value).imp fun _ _ _ constant => constant.2.2)

theorem yields_parameter_stored (name : String) (isOpen : session.IsOpen) :
    (parameter name).Yields meaning session fun graph handle =>
      handle.Stores meaning graph (meaning.input name) := by
  have yields : (parameter name).Yields meaning session fun graph handle =>
      handle.Denotes meaning graph (meaning.input name) :=
    yields_parameter isOpen name
  rw [parameter, apply_eq_map] at yields ⊢
  exact yields.stored

theorem yields_materialize_stored {handle : Handle} {value : V} (isOpen : session.IsOpen)
    (denotes : handle.Denotes meaning session.graph value) :
    (materialize handle).Yields meaning session fun graph handle =>
      handle.Stores meaning graph value :=
  Yields.stored (yields_materialize isOpen denotes)

theorem yields_each_recorded {step : α → Recording Handle} {items : List α}
    (isOpen : session.IsOpen)
    (each : ∀ item ∈ items, ∀ middle : Session, session.Extends meaning middle →
      (step item).Yields meaning middle fun graph handle => handle.IsRecorded graph) :
    (items.mapM step).Yields meaning session fun graph handles =>
      handles.length = items.length ∧ ∀ handle ∈ handles, handle.IsRecorded graph := by
  -- The steps start later and later, always beyond the session of the statement.
  suffices beyond : ∀ current : Session, session.Extends meaning current →
      (items.mapM step).Yields meaning current fun graph handles =>
        handles.length = items.length ∧ ∀ handle ∈ handles, handle.IsRecorded graph by
    exact beyond session (.refl isOpen)
  induction items with
  | nil => exact fun current reached => .pure reached.isOpen ⟨rfl, by simp⟩
  | cons item items induction =>
      intro current reached
      rw [List.forall_mem_cons] at each
      rw [List.mapM_cons]
      refine (each.1 current reached).bind fun middle handle extended recorded => ?_
      refine (induction each.2 middle (reached.trans extended)).bind
        fun last handles further others => ?_
      refine .pure further.isOpen ⟨congrArg Nat.succ others.1, ?_⟩
      exact List.forall_mem_cons.mpr ⟨recorded.mono further.size_le, others.2⟩

end Recording

namespace Dual

/-- The scalar operator that the operation extends. -/
def UnaryOperation.operator : UnaryOperation → UnaryOperator
  | neg => .negate
  | sin => .sin
  | cos => .cos
  | sqrt => .sqrt
  | exp => .exp
  | log => .log

def BinaryOperation.operator : BinaryOperation → BinaryOperator
  | add => .add
  | sub => .sub
  | mul => .mul
  | div => .div

@[simp] theorem unary?_operator (operation : UnaryOperation) :
    unary? operation.operator = some operation := by
  cases operation <;> rfl

@[simp] theorem binary?_operator (operation : BinaryOperation) :
    binary? operation.operator = some operation := by
  cases operation <;> rfl

/-- What the primal becomes: a quotient is the product with a reciprocal. -/
def BinaryOperation.onPrimals (meaning : Interpretation V) (operation : BinaryOperation)
    (a b : V) : V :=
  match operation with
  | div =>
      meaning.operation .binary "*"
        [a, meaning.operation .binary "/" [meaning.literal 1.0, b]]
  | operation =>
      meaning.operation operation.operator.kind operation.operator.symbol [a, b]

open Recording

variable {session : Session} {count : Nat} {a b : V}

theorem yields_of_renewed {primal : Handle} {step : Recording (List Handle)}
    (stores : primal.Stores meaning session.graph a)
    (partials : step.Yields meaning session fun graph handles =>
      handles.length = count ∧ ∀ handle ∈ handles, handle.IsRecorded graph) :
    (of primal <$> step).Yields meaning session fun graph dual =>
      dual.Renews meaning graph count a := by
  refine .map _ (partials.imp ?_)
  rintro after handles extended ⟨length, each⟩
  exact ⟨rfl, length, extended.stores stores, each⟩

theorem yields_slots_renewed {primal : Handle} {inner : Dual}
    {step : Handle → Recording Handle} (isOpen : session.IsOpen)
    (stores : primal.Stores meaning session.graph b)
    (offers : inner.Offers meaning session.graph count a)
    (each : ∀ (slot : Handle) (middle : Session), session.Extends meaning middle →
      slot.IsReadable meaning middle.graph → (step slot).Yields meaning middle
        fun graph handle => handle.IsRecorded graph) :
    (of primal <$> inner.partials.mapM step).Yields meaning session fun graph dual =>
      dual.Renews meaning graph count b := by
  refine yields_of_renewed stores ?_
  rw [← offers.dims_eq]
  exact yields_each_recorded isOpen fun slot member middle extended =>
    each slot middle extended (extended.isReadable (offers.partials slot member))

theorem yields_factor_renewed {primal factor : Handle} {inner : Dual}
    (isOpen : session.IsOpen) (stores : primal.Stores meaning session.graph b)
    (readableFactor : factor.IsReadable meaning session.graph)
    (offers : inner.Offers meaning session.graph count a) :
    (of primal <$> inner.partials.mapM fun slot =>
      Recording.binary .mul slot factor).Yields meaning session fun graph dual =>
        dual.Renews meaning graph count b := by
  refine yields_slots_renewed isOpen stores offers fun slot middle extended readable => ?_
  exact yields_binary_recorded .mul extended.isOpen readable
    (extended.isReadable readableFactor)

theorem yields_chain_renewed {primal derivative : Handle} {inner : Dual}
    (isOpen : session.IsOpen) (stores : primal.Stores meaning session.graph b)
    (recordedSlope : derivative.IsRecorded session.graph)
    (offers : inner.Offers meaning session.graph count a) :
    (chain primal derivative inner).Yields meaning session fun graph dual =>
      dual.Renews meaning graph count b :=
  yields_factor_renewed isOpen stores (recordedSlope.isReadable meaning) offers

theorem yields_scale_renewed {dual : Dual} {factor : Handle} (isOpen : session.IsOpen)
    (denotes : factor.Denotes meaning session.graph b)
    (offers : dual.Offers meaning session.graph count a) :
    (dual.scale factor).Yields meaning session fun graph result =>
      result.Renews meaning graph count (meaning.operation .binary "*" [a, b]) := by
  refine (yields_binary_stored .mul isOpen offers.primal denotes).bind
    fun middle primal extended stores => ?_
  exact yields_factor_renewed extended.isOpen stores ⟨_, extended.denotes denotes⟩
    (extended.offers offers)

theorem yields_unary_renewed (operation : UnaryOperation) {dual : Dual}
    (isOpen : session.IsOpen) (offers : dual.Offers meaning session.graph count a) :
    (operation.apply dual).Yields meaning session fun graph result =>
      result.Renews meaning graph count
        (meaning.operation operation.operator.kind operation.operator.symbol [a]) := by
  cases operation with
  | neg =>
      refine (yields_unary_stored .negate isOpen offers.primal).bind
        fun middle primal extended stores => ?_
      refine yields_slots_renewed extended.isOpen stores (extended.offers offers) ?_
      rintro slot last further ⟨value, denotes⟩
      exact (yields_unary_stored .negate further.isOpen denotes).imp
        fun _ _ _ stored => stored.recorded
  | sin =>
      refine (yields_unary_stored .sin isOpen offers.primal).bind
        fun middle primal extended stores => ?_
      have inner := extended.offers offers
      refine (yields_unary_stored .cos extended.isOpen inner.primal).bind
        fun last derivative further storesSlope => ?_
      exact yields_chain_renewed further.isOpen (further.stores stores)
        storesSlope.recorded (further.offers inner)
  | cos =>
      refine (yields_unary_stored .cos isOpen offers.primal).bind
        fun middle primal extended stores => ?_
      have inner := extended.offers offers
      refine (yields_unary_stored .sin extended.isOpen inner.primal).bind
        fun later sine further storesSine => ?_
      refine (yields_unary_stored .negate further.isOpen storesSine.denotes).bind
        fun last derivative furthest storesSlope => ?_
      have beyond := further.trans furthest
      exact yields_chain_renewed furthest.isOpen (beyond.stores stores)
        storesSlope.recorded (beyond.offers inner)
  | sqrt =>
      refine (yields_unary_stored .sqrt isOpen offers.primal).bind
        fun middle primal extended stores => ?_
      refine (yields_binary_stored .mul extended.isOpen (Handle.denotes_literal 2.0)
        stores.denotes).bind fun later twice further storesTwice => ?_
      refine (yields_binary_stored .div further.isOpen (Handle.denotes_literal 1.0)
        storesTwice.denotes).bind fun last derivative furthest storesSlope => ?_
      have beyond := further.trans furthest
      exact yields_chain_renewed furthest.isOpen (beyond.stores stores)
        storesSlope.recorded ((extended.trans beyond).offers offers)
  | exp =>
      refine (yields_unary_stored .exp isOpen offers.primal).bind
        fun middle primal extended stores => ?_
      exact yields_chain_renewed extended.isOpen stores stores.recorded
        (extended.offers offers)
  | log =>
      refine (yields_unary_stored .log isOpen offers.primal).bind
        fun middle primal extended stores => ?_
      have inner := extended.offers offers
      refine (yields_binary_stored .div extended.isOpen (Handle.denotes_literal 1.0)
        inner.primal).bind fun last derivative further storesSlope => ?_
      exact yields_chain_renewed further.isOpen (further.stores stores)
        storesSlope.recorded (further.offers inner)

/-- Slot by slot, whatever is recorded for one pair of slots. -/
theorem yields_pairs_renewed {primal : Handle} {left right : Dual} {value : V}
    {step : Handle × Handle → Recording Handle} (isOpen : session.IsOpen)
    (stores : primal.Stores meaning session.graph value)
    (offersLeft : left.Offers meaning session.graph count a)
    (offersRight : right.Offers meaning session.graph count b)
    (each : ∀ (first second : Handle) (middle : Session),
      session.Extends meaning middle → first.IsReadable meaning middle.graph →
      second.IsReadable meaning middle.graph →
      (step (first, second)).Yields meaning middle fun graph handle =>
        handle.IsRecorded graph) :
    (of primal <$> (left.partials.zip right.partials).mapM step).Yields meaning session
      fun graph dual => dual.Renews meaning graph count value := by
  have paired : (left.partials.zip right.partials).length = count := by
    rw [List.length_zip]
    exact (congrArg₂ min offersLeft.dims_eq offersRight.dims_eq).trans (Nat.min_self _)
  refine yields_of_renewed stores ?_
  rw [← paired]
  refine yields_each_recorded isOpen ?_
  rintro ⟨first, second⟩ member middle extended
  obtain ⟨memberLeft, memberRight⟩ := List.of_mem_zip member
  exact each first second middle extended
    (extended.isReadable (offersLeft.partials first memberLeft))
    (extended.isReadable (offersRight.partials second memberRight))

theorem yields_zipWith_renewed (operator : BinaryOperator) {left right : Dual}
    (isOpen : session.IsOpen) (offersLeft : left.Offers meaning session.graph count a)
    (offersRight : right.Offers meaning session.graph count b) :
    (zipWith operator left right).Yields meaning session fun graph result =>
      result.Renews meaning graph count
        (meaning.operation operator.kind operator.symbol [a, b]) := by
  refine (yields_binary_stored operator isOpen offersLeft.primal
    offersRight.primal).bind fun middle primal extended stores => ?_
  refine yields_pairs_renewed extended.isOpen stores (extended.offers offersLeft)
    (extended.offers offersRight)
    fun first second last further readableFirst readableSecond => ?_
  exact yields_binary_recorded operator further.isOpen readableFirst readableSecond

theorem yields_mul_renewed {left right : Dual} (isOpen : session.IsOpen)
    (offersLeft : left.Offers meaning session.graph count a)
    (offersRight : right.Offers meaning session.graph count b) :
    (left.mul right).Yields meaning session fun graph result =>
      result.Renews meaning graph count (meaning.operation .binary "*" [a, b]) := by
  unfold mul
  rw [demandEqualDims_of_eq _ (offersLeft.dims_eq.trans offersRight.dims_eq.symm),
    pure_bind]
  refine (yields_binary_stored .mul isOpen offersLeft.primal offersRight.primal).bind
    fun middle primal extended stores => ?_
  have leftThen := extended.offers offersLeft
  have rightThen := extended.offers offersRight
  refine yields_pairs_renewed extended.isOpen stores leftThen rightThen
    fun first second slot reached readableFirst readableSecond => ?_
  refine (yields_binary_recorded .mul reached.isOpen
    ⟨_, reached.denotes leftThen.primal⟩ readableSecond).bind
    fun later outer further recordedOuter => ?_
  refine (yields_binary_recorded .mul further.isOpen (further.isReadable readableFirst)
    ⟨_, (reached.trans further).denotes rightThen.primal⟩).bind
    fun last inner furthest recordedInner => ?_
  exact yields_binary_recorded .add furthest.isOpen
    (furthest.isReadable (recordedOuter.isReadable meaning))
    (recordedInner.isReadable meaning)

theorem yields_div_renewed {left right : Dual} (isOpen : session.IsOpen)
    (offersLeft : left.Offers meaning session.graph count a)
    (offersRight : right.Offers meaning session.graph count b) :
    (left.div right).Yields meaning session fun graph result =>
      result.Renews meaning graph count (BinaryOperation.div.onPrimals meaning a b) := by
  unfold div
  rw [demandEqualDims_of_eq _ (offersLeft.dims_eq.trans offersRight.dims_eq.symm),
    pure_bind]
  refine (yields_binary_stored .div isOpen (Handle.denotes_literal 1.0)
    offersRight.primal).bind fun middle inverse extended storesInverse => ?_
  refine (yields_binary_stored .mul extended.isOpen (extended.offers offersLeft).primal
    storesInverse.denotes).bind fun later primal further stores => ?_
  have reached := extended.trans further
  refine yields_pairs_renewed further.isOpen stores (reached.offers offersLeft)
    (reached.offers offersRight)
    fun first second slot inside readableFirst readableSecond => ?_
  refine (yields_binary_recorded .mul inside.isOpen
    ⟨_, inside.denotes stores.denotes⟩ readableSecond).bind
    fun next product onward recordedProduct => ?_
  refine (yields_binary_recorded .sub onward.isOpen
    (onward.isReadable readableFirst) (recordedProduct.isReadable meaning)).bind
    fun last difference final recordedDifference => ?_
  have beyond := (further.trans inside).trans (onward.trans final)
  exact yields_binary_recorded .mul final.isOpen (recordedDifference.isReadable meaning)
    ⟨_, beyond.denotes storesInverse.denotes⟩

theorem yields_binary_renewed (operation : BinaryOperation) {left right : Dual}
    (isOpen : session.IsOpen) (offersLeft : left.Offers meaning session.graph count a)
    (offersRight : right.Offers meaning session.graph count b) :
    (operation.apply left right).Yields meaning session fun graph result =>
      result.Renews meaning graph count (operation.onPrimals meaning a b) := by
  have same := offersLeft.dims_eq.trans offersRight.dims_eq.symm
  cases operation with
  | add =>
      simp only [BinaryOperation.apply, Dual.add, demandEqualDims_of_eq _ same, pure_bind]
      exact yields_zipWith_renewed .add isOpen offersLeft offersRight
  | sub =>
      simp only [BinaryOperation.apply, Dual.sub, demandEqualDims_of_eq _ same, pure_bind]
      exact yields_zipWith_renewed .sub isOpen offersLeft offersRight
  | mul => exact yields_mul_renewed isOpen offersLeft offersRight
  | div => exact yields_div_renewed isOpen offersLeft offersRight

theorem yields_unary_carried (operation : UnaryOperation) {dual : Dual}
    (isOpen : session.IsOpen) (carries : dual.Carries meaning session.graph count a) :
    (operation.apply dual).Yields meaning session fun graph result =>
      result.Carries meaning graph count
        (meaning.operation operation.operator.kind operation.operator.symbol [a]) :=
  (yields_unary_renewed operation isOpen carries.offers).imp
    fun _ _ _ renews => renews.carries carries.count_le

theorem yields_binary_carried (operation : BinaryOperation) {left right : Dual}
    (isOpen : session.IsOpen) (carriesLeft : left.Carries meaning session.graph count a)
    (carriesRight : right.Carries meaning session.graph count b) :
    (operation.apply left right).Yields meaning session fun graph result =>
      result.Carries meaning graph count (operation.onPrimals meaning a b) :=
  (yields_binary_renewed operation isOpen carriesLeft.offers carriesRight.offers).imp
    fun _ _ _ renews => renews.carries carriesLeft.count_le

/-- The slots of the dual number are newer than the session, and none of them is that of
its primal. -/
def HasFreshSlots (session : Session) (dual : Dual) : Prop :=
  ∀ handle ∈ dual.partials, handle ≠ dual.primal ∧
    ∃ id : Nat, handle = .bound id ∧ session.graph.size ≤ id

theorem mem_consecutive {first : Nat} {handle : Handle}
    (member : handle ∈ consecutive first count) :
    ∃ id : Nat, handle = .bound id ∧ first ≤ id ∧ id < first + count := by
  obtain ⟨id, inside, rfl⟩ := List.mem_map.mp member
  obtain ⟨le, lt⟩ := List.mem_range'_1.mp inside
  exact ⟨id, rfl, le, lt⟩

theorem isRecorded_consecutive {graph : Graph} {first : Nat}
    (inside : first + count ≤ graph.size) :
    ∀ handle ∈ consecutive first count, handle.IsRecorded graph := by
  intro handle member
  obtain ⟨id, rfl, -, below⟩ := mem_consecutive member
  exact NodeId.precedes_natCast.mpr (by omega)

theorem length_consecutive (first count : Nat) :
    (consecutive first count).length = count := by
  simp [consecutive]

theorem yields_ofHandle_carried {primal : Handle} (isOpen : session.IsOpen)
    (stores : primal.Stores meaning session.graph a) (count_le : count ≤ maximalDims) :
    (ofHandle primal count).Yields meaning session fun graph dual =>
      dual.Carries meaning graph count a ∧ dual.HasFreshSlots session := by
  rw [ofHandle, zeroPartials_of_nat count_le]
  refine .map _ ((yields_zeros isOpen count).imp ?_)
  rintro after handles extended ⟨rfl, grown, -⟩
  have stored := extended.stores stores
  have sameLength := length_consecutive session.graph.size count
  refine ⟨⟨⟨stored.recorded, rfl, isRecorded_consecutive grown.ge, ?_⟩, sameLength,
    stored.denotes⟩, fun handle member => ?_⟩
  · rw [dims_of, sameLength]
    exact count_le
  · obtain ⟨id, rfl, newer, -⟩ := mem_consecutive member
    refine ⟨?_, id, rfl, newer⟩
    rintro rfl
    have older := NodeId.precedes_natCast.mp stores.recorded
    omega

theorem yields_constant_carried (value : Float) (isOpen : session.IsOpen)
    (count_le : count ≤ maximalDims) :
    (constant value count).Yields meaning session fun graph dual =>
      dual.Carries meaning graph count (meaning.literal value) ∧
        dual.HasFreshSlots session := by
  unfold constant
  rw [assign_unset_literal]
  refine (yields_constant_stored value isOpen).bind fun middle primal extended stores =>
    ?_
  refine (yields_ofHandle_carried extended.isOpen stores count_le).imp ?_
  rintro after dual - ⟨carries, fresh⟩
  refine ⟨carries, fun handle member => ?_⟩
  obtain ⟨apart, id, rfl, newer⟩ := fresh handle member
  exact ⟨apart, id, rfl, extended.size_le.trans newer⟩

/-- Seeding overwrites a slot that is fresh, so nothing older changes. -/
theorem yields_seed_carried {step : Recording Dual} {slot : Nat}
    (yields : step.Yields meaning session fun graph dual =>
      dual.Carries meaning graph count a ∧ dual.HasFreshSlots session)
    (inside : slot < count) :
    (step >>= fun dual => dual.seed slot).Yields meaning session fun graph dual =>
      dual.Carries meaning graph count a := by
  obtain ⟨dual, middle, ran, extended, carries, fresh⟩ := yields
  obtain ⟨handle, found⟩ : ∃ handle, dual.partials[slot]? = some handle :=
    ⟨_, List.getElem?_eq_getElem (inside.trans_eq carries.dims_eq.symm)⟩
  have member := List.mem_of_getElem? found
  obtain ⟨apart, target, rfl, newer⟩ := fresh handle member
  obtain ⟨after, assigned, overwrites⟩ := overwrites_assign extended.isOpen
    (Handle.denotes_literal 1.0) (carries.recorded.partials _ member)
  refine ⟨dual, after, ?_, extended.overwrite overwrites ?_,
    carries.recorded.mono overwrites.size_le, carries.dims_eq, ?_⟩
  · rw [runOn_bind_of_ok ran, runOn_seed found assigned, carries.recorded.of_partials]
  · rw [← Bool.not_eq_true, NodeId.precedes_natCast]
    omega
  · have primal := carries.primal
    cases same : dual.primal with
    | bound id =>
        rw [same] at primal apart
        refine ⟨NodeId.precedes_mono overwrites.size_le primal.1, ?_⟩
        rw [overwrites.contents_eq id primal.1 fun hit => apart (congrArg _ hit.symm)]
        exact primal.2
    | unset =>
        rw [same] at primal
        exact primal
    | literal value =>
        rw [same] at primal
        exact primal

theorem yields_seeded_carried (value : Float) {slot : Nat} (isOpen : session.IsOpen)
    (inside : slot < count) (count_le : count ≤ maximalDims) :
    (seeded value slot count).Yields meaning session fun graph dual =>
      dual.Carries meaning graph count (meaning.literal value) := by
  unfold seeded
  rw [if_neg (by omega)]
  exact yields_seed_carried (yields_constant_carried value isOpen count_le) inside

theorem mem_partials_of_partialAt {dual : Dual} {slot : Int} {handle : Handle}
    (found : dual.partialAt slot = .ok handle) : handle ∈ dual.partials := by
  unfold partialAt at found
  split at found
  · split at found
    next found' =>
      cases found
      exact List.mem_of_getElem? found'
    · cases found
  · cases found

theorem zeroPartials_of_large {dims : Int} (large : maximalDims < dims) :
    zeroPartials dims = throw .dimsOutOfRange :=
  if_neg (by omega)

/-- A destination that is recorded stays what it is. -/
theorem runOn_assign_recorded {destination source : Handle} (isOpen : session.IsOpen)
    (recorded : destination.IsRecorded session.graph)
    (usable : source.Denotes Interpretation.indifferent session.graph ()) :
    ∃ after, (Recording.assign destination source).runOn session =
      (.ok destination, after) ∧ session.Extends Interpretation.indifferent after := by
  cases destination with
  | unset => exact recorded.elim
  | literal value => exact recorded.elim
  | bound target =>
      obtain ⟨after, ran, overwrites⟩ := overwrites_assign isOpen usable recorded
      exact ⟨after, ran, overwrites.isOpen, overwrites.size_le, fun _ _ => rfl⟩

theorem run_assignEach_recorded {destinations sources : List Handle}
    (isOpen : session.IsOpen)
    (recorded : ∀ handle ∈ destinations, handle.IsRecorded session.graph)
    (recordedSources : ∀ handle ∈ sources, handle.IsRecorded session.graph) :
    ∃ after, (assignEach destinations sources).run session =
      ((destinations, .ok ()), after) ∧
        session.Extends Interpretation.indifferent after := by
  induction destinations generalizing sources session with
  | nil => exact ⟨session, by cases sources <;> rfl, .refl isOpen⟩
  | cons destination destinations induction =>
      cases sources with
      | nil => exact ⟨session, rfl, .refl isOpen⟩
      | cons source sources =>
          rw [List.forall_mem_cons] at recorded recordedSources
          obtain ⟨middle, ran, extended⟩ :=
            runOn_assign_recorded isOpen recorded.1 recordedSources.1.denotes
          obtain ⟨after, finished, further⟩ := induction extended.isOpen
            (fun handle member => (recorded.2 handle member).mono extended.size_le)
            (fun handle member => (recordedSources.2 handle member).mono extended.size_le)
          refine ⟨after, ?_, extended.trans further⟩
          simp only [run_assignEach_cons, ran, finished]

/-- Whether it is carried out or refused, an assignment leaves its destination the
handles that it has. -/
theorem run_assign_recorded {destination source : Dual} (isOpen : session.IsOpen)
    (recorded : destination.IsRecorded session.graph)
    (recordedSource : source.IsRecorded session.graph) :
    (∃ after, (destination.assign source).run session = ((destination, .ok ()), after) ∧
      session.Extends Interpretation.indifferent after) ∨
    (destination.assign source).run session =
      ((destination, .error (.unequalDims "assign" destination.dims source.dims)),
        session) := by
  rw [run_assign, recorded.slots_eq, Option.getD_some]
  by_cases same : destination.dims = source.dims
  · left
    obtain ⟨after, ran, extended⟩ := run_assignEach_recorded isOpen
      (List.forall_mem_cons.mpr ⟨recorded.primal, recorded.partials⟩)
      (List.forall_mem_cons.mpr ⟨recordedSource.primal, recordedSource.partials⟩)
    refine ⟨after, ?_, extended⟩
    have matching : ¬destination.partials.length ≠ source.dims := not_not_intro same
    simp only
    rw [if_neg matching, ran]
    exact congrArg (fun dual : Dual => ((dual, Except.ok ()), after)) recorded.of_partials
  · exact .inr (if_pos same)

end Dual

end CostTape
