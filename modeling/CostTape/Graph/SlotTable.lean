import CostTape.Graph.Node

/-! Tables with a flag for each slot of a trace.  They are read and written at
places that nodes name, and such a place need not be there. -/

namespace CostTape

structure IndexFault where
  index : Int
  size : Nat
deriving DecidableEq

structure SlotTable where
  flags : Array Bool

namespace SlotTable

def size (table : SlotTable) : Nat :=
  table.flags.size

def blank (size : Nat) : SlotTable :=
  ⟨Array.replicate size false⟩

def flag (table : SlotTable) (id : NodeId) : Bool :=
  table.flags.getD id.toNat false

def read (table : SlotTable) (id : NodeId) : Except IndexFault Bool :=
  if id.precedes table.size then .ok (table.flag id) else .error ⟨id, table.size⟩

def mark (table : SlotTable) (id : NodeId) : Except IndexFault SlotTable :=
  if id.precedes table.size then .ok ⟨table.flags.setIfInBounds id.toNat true⟩
  else .error ⟨id, table.size⟩

/-- The later table has the flags of the earlier one and those of the slots that
were touched. -/
structure Marked (touched : NodeId → Bool) (before after : SlotTable) : Prop where
  size_eq : after.size = before.size
  flag_eq : ∀ id : NodeId, id.precedes before.size = true →
    after.flag id = (before.flag id || touched id)

@[simp] theorem size_blank (size : Nat) : (blank size).size = size := by
  simp [SlotTable.size, blank]

@[simp] theorem flag_blank (size : Nat) (id : NodeId) : (blank size).flag id = false := by
  unfold flag blank
  rw [Array.getD_eq_getD_getElem?, Array.getElem?_replicate]
  split <;> rfl

theorem read_eq_ok {table : SlotTable} {id : NodeId}
    (inside : id.precedes table.size = true) : table.read id = .ok (table.flag id) :=
  if_pos inside

theorem marked_mark {table : SlotTable} {id : NodeId}
    (inside : id.precedes table.size = true) :
    ∃ after, table.mark id = .ok after ∧
      table.Marked (fun other => id == other) after := by
  refine ⟨_, if_pos inside, ?_, ?_⟩
  · simp [SlotTable.size]
  · intro other old
    rw [NodeId.precedes_iff] at inside old
    have within : other.toNat < table.flags.size := by
      have : table.size = table.flags.size := rfl
      omega
    simp only [flag, Array.getD_eq_getD_getElem?, Array.getElem?_setIfInBounds]
    by_cases same : id = other
    · subst same
      simp [within]
    · have apart : id.toNat ≠ other.toNat := by
        intro equal
        apply same
        rw [← Int.toNat_of_nonneg inside.1, ← Int.toNat_of_nonneg old.1, equal]
      simp [apart, same]

namespace Marked

variable {table before middle after : SlotTable} {touched further : NodeId → Bool}

theorem refl : table.Marked (fun _ => false) table :=
  ⟨rfl, fun _ _ => (Bool.or_false _).symm⟩

theorem trans (first : before.Marked touched middle)
    (second : middle.Marked further after) :
    before.Marked (fun id => touched id || further id) after where
  size_eq := second.size_eq.trans first.size_eq
  flag_eq := by
    intro id old
    rw [second.flag_eq id (by rw [first.size_eq]; exact old), first.flag_eq id old,
      Bool.or_assoc]

theorem foldlM {step : SlotTable → α → Except IndexFault SlotTable}
    {touches : α → NodeId → Bool} {items : List α}
    (each : ∀ item ∈ items, ∀ current : SlotTable, current.size = table.size →
      ∃ next, step current item = .ok next ∧ current.Marked (touches item) next) :
    ∃ after, items.foldlM step table = .ok after ∧
      table.Marked (fun id => items.any (touches · id)) after := by
  induction items generalizing table with
  | nil => exact ⟨table, rfl, refl⟩
  | cons item items induction =>
      obtain ⟨next, stepped, marked⟩ := each item List.mem_cons_self table rfl
      obtain ⟨after, ran, rest⟩ := @induction next fun other member current same =>
        each other (List.mem_cons_of_mem _ member) current (same.trans marked.size_eq)
      refine ⟨after, ?_, marked.trans rest⟩
      rw [List.foldlM_cons, stepped]
      exact ran

end Marked

/-- All arguments of a node at once.  The step need be a mark only where it is used. -/
theorem marked_args {step : SlotTable → NodeId → Except IndexFault SlotTable}
    {table : SlotTable} {args : List NodeId}
    (inside : ∀ arg ∈ args, arg.precedes table.size = true)
    (marks : ∀ arg ∈ args, ∀ current : SlotTable, current.size = table.size →
      step current arg = current.mark arg) :
    ∃ after, args.foldlM step table = .ok after ∧ table.Marked args.contains after := by
  have each (arg : NodeId) (member : arg ∈ args) (current : SlotTable)
      (same : current.size = table.size) :
      ∃ next, step current arg = .ok next ∧
        current.Marked (fun id => arg == id) next := by
    rw [marks arg member current same]
    exact marked_mark (by rw [same]; exact inside arg member)
  obtain ⟨after, ran, marked⟩ := Marked.foldlM each
  refine ⟨after, ran, marked.size_eq, fun id old => ?_⟩
  rw [marked.flag_eq id old, List.contains_eq_any_beq]
  congr 2
  funext arg
  exact Bool.beq_comm

end SlotTable

end CostTape
