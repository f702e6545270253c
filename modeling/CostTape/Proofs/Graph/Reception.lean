import CostTape.Graph.YamlForm
import CostTape.Proofs.Graph.JsonExchange

/-! What a graph can become when a text is read over it. -/

namespace CostTape

namespace Graph

namespace PartRead

/-- Whatever is read has the property. -/
def Gives (property : α → Prop) (read : PartRead α) : Prop :=
  ∀ mismatched found after, read.run mismatched = .ok (found, after) → property found

theorem Gives.pure {property : α → Prop} {found : α} (holds : property found) :
    Gives property (pure found) := by
  intro mismatched other after ran
  cases ran
  exact holds

theorem Gives.bind {first : α → Prop} {second : β → Prop} {read : PartRead α}
    {next : α → PartRead β} (before : Gives first read)
    (after : ∀ found, first found → Gives second (next found)) :
    Gives second (read >>= next) := by
  intro mismatched found flag ran
  rw [StateT.run_bind] at ran
  cases started : read.run mismatched with
  | error fault =>
      rw [started] at ran
      cases ran
  | ok reached =>
      rw [started] at ran
      exact after reached.1 (before _ _ _ started) _ _ _ ran

theorem Gives.mismatch {property : α → Prop} {kept : α} (holds : property kept) :
    Gives property (mismatch kept) := by
  intro mismatched other after ran
  cases ran
  exact holds

theorem Gives.take {property : α → Prop} {kept : α} {found : Option α}
    (holds : property kept) (all : ∀ value ∈ found, property value) :
    Gives property (take kept found) := by
  cases found with
  | none => exact Gives.mismatch holds
  | some value => exact Gives.pure (all value rfl)

theorem Gives.foldlM (property : β → Prop) {step : β → α → PartRead β}
    (keeps : ∀ kept value, property kept → Gives property (step kept value))
    {start : β} (holds : property start) (values : List α) :
    Gives property (values.foldlM step start) := by
  induction values generalizing start with
  | nil => exact Gives.pure holds
  | cons value values ih =>
      rw [List.foldlM_cons]
      exact (keeps start value holds).bind fun _ kept => ih kept

end PartRead

namespace JsonPart

open PartRead

theorem inWord_of_intOf? {digits : String} {number : ℤ}
    (read : intOf? digits = some number) : InWord number := by
  simp only [intOf?, Option.ite_none_right_eq_some, Option.some.injEq] at read
  obtain ⟨-, word, rfl⟩ := read
  exact word

theorem isFinite_of_floatOf? {digits : String} {value : Float}
    (read : floatOf? digits = some value) : value.isFinite = true := by
  obtain ⟨found, chars, taken⟩ := Option.bind_eq_some_iff.mp read
  split at taken
  · cases taken
  · rename_i bounded
    cases taken
    rw [NumberLayout.isFinite_iff]
    exact ⟨Decimal.isNaN_of_readChars? chars, by simpa using bounded⟩

theorem gives_int {kept : ℤ} (word : InWord kept) (value : JsonValue) :
    Gives InWord (int kept value) := by
  cases value with
  | null => exact .pure word
  | number digits => exact .take word fun _ read => inWord_of_intOf? read
  | _ => exact .mismatch word

theorem gives_float {kept : Float} (finite : kept.isFinite = true) (value : JsonValue) :
    Gives (fun found => found.isFinite = true) (float kept value) := by
  cases value with
  | null => exact .pure finite
  | number digits => exact .take finite fun _ read => isFinite_of_floatOf? read
  | _ => exact .mismatch finite

theorem gives_items {property : α → Prop} {item : α → JsonValue → PartRead α} {blank : α}
    (keeps : ∀ kept value, property kept → Gives property (item kept value))
    (blankHolds : property blank) {kept : List α} (holds : ∀ found ∈ kept, property found)
    (values : List JsonValue) :
    Gives (fun found => ∀ one ∈ found, property one) (items item blank kept values) := by
  induction values generalizing kept with
  | nil => exact .pure (by simp)
  | cons value values ih =>
      have head : property (kept.headD blank) := by
        cases kept with
        | nil => exact blankHolds
        | cons first rest => exact holds first List.mem_cons_self
      have tail : ∀ found ∈ kept.tail, property found :=
        fun found mem => holds found (List.mem_of_mem_tail mem)
      exact (keeps _ value head).bind fun first firstHolds =>
        (ih tail).bind fun rest restHolds =>
          .pure (List.forall_mem_cons.mpr ⟨firstHolds, restHolds⟩)

/-- The property holds of everything on the shelf, shown or not. -/
def Shelf.All (property : α → Prop) (shelf : Shelf α) : Prop :=
  ∀ one ∈ shelf.shown ++ shelf.behind, property one

theorem gives_array {property : α → Prop} {item : α → JsonValue → PartRead α} {blank : α}
    (keeps : ∀ kept value, property kept → Gives property (item kept value))
    (blankHolds : property blank) {kept : Shelf α} (holds : kept.All property)
    (value : JsonValue) : Gives (Shelf.All property) (array item blank kept value) := by
  have cleared : Shelf.All property ⟨[], []⟩ := by simp [Shelf.All]
  cases value with
  | null => exact .pure cleared
  | array values =>
      cases values with
      | nil => exact .pure cleared
      | cons value values =>
          refine (gives_items keeps blankHolds holds (value :: values)).bind
            fun shown found => ?_
          refine .pure fun one mem => ?_
          rcases List.mem_append.mp mem with new | old
          · exact found one new
          · exact holds one (List.mem_of_mem_drop old)
  | _ => exact .mismatch holds

/-- The draft has a finite value, and an id that fits a machine word. -/
def Draft.Sound (draft : Draft) : Prop :=
  draft.node.value.isFinite = true ∧ InWord draft.node.id

theorem gives_nodeField {draft : Draft} (sound : draft.Sound) (name : String)
    (value : JsonValue) : Gives Draft.Sound (nodeField draft name value) := by
  have ⟨finite, word⟩ := sound
  have any (α : Type) (read : PartRead α) : Gives (fun _ => True) read :=
    fun _ _ _ _ => trivial
  unfold nodeField
  split_ifs
  · exact (gives_int word value).bind fun _ found => .pure ⟨finite, found⟩
  · exact (any _ _).bind fun _ _ => .pure sound
  · exact (any _ _).bind fun _ _ => .pure sound
  · exact (gives_float finite value).bind fun _ found => .pure ⟨found, word⟩
  · exact (any _ _).bind fun _ _ => .pure sound
  · exact (any _ _).bind fun _ _ => .pure sound
  · exact .pure sound

theorem gives_node {kept : Draft} (sound : kept.Sound) (value : JsonValue) :
    Gives Draft.Sound (node kept value) := by
  cases value with
  | null => exact .pure sound
  | object fields =>
      exact .foldlM Draft.Sound (fun _ field still =>
        gives_nodeField still field.1 field.2) sound fields
  | _ => exact .mismatch sound

theorem gives_document (value : JsonValue) :
    Gives (fun nodes => ∀ node ∈ nodes, node.value.isFinite = true ∧ InWord node.id)
      (document value) := by
  have blank : Draft.blank.Sound := by
    refine ⟨?_, by decide⟩
    decide
  cases value with
  | null => exact .pure (by simp)
  | object fields =>
      have field (kept : Shelf Draft) (entry : String × JsonValue)
          (sound : kept.All Draft.Sound) :
          Gives (Shelf.All Draft.Sound) (documentField kept entry.1 entry.2) := by
        unfold documentField
        split
        · exact gives_array (fun _ value still => gives_node still value) blank sound
            entry.2
        · exact .pure sound
      refine (Gives.foldlM _ field (by simp [Shelf.All]) fields).bind fun drafts sound =>
        ?_
      refine .pure fun node mem => ?_
      obtain ⟨draft, shown, rfl⟩ := List.mem_map.mp mem
      exact sound draft (List.mem_append_left _ shown)
  | _ => exact .mismatch (by simp)

end JsonPart

theorem PartRead.run_of_whole {read : PartRead α} {found : α}
    (taken : read.whole = .ok found) : read.run false = .ok (found, false) := by
  unfold whole at taken
  split at taken
  · rename_i ran
    cases taken
    exact ran
  · cases taken
  · cases taken

/-- On a fault, and without a list of nodes, the receiver stays as it is.  Else it becomes
the frozen graph of the nodes, which keeps every rule. -/
theorem run_receive {Symbol Document : Type} [DecidableEq Symbol] [SymbolType Symbol]
    (reader : NodeReader Symbol Document) (document : Document)
    (receiver : Graph Symbol) :
    (∃ fault, (receive reader document).run.run receiver = (.error fault, receiver)) ∨
      (reader document = .ok none ∧
        (receive reader document).run.run receiver = (.ok (), receiver)) ∨
      ∃ nodes, reader document = .ok (some nodes) ∧
        (Graph.mk nodes.toArray true).flaws = [] ∧
        (receive reader document).run.run receiver = (.ok (), ⟨nodes.toArray, true⟩) := by
  unfold receive
  cases reader document with
  | error fault => exact .inl ⟨fault, rfl⟩
  | ok found =>
      cases found with
      | none => exact .inr (.inl ⟨rfl, rfl⟩)
      | some nodes =>
          dsimp only
          rw [Reception.store]
          cases made : ofNodes nodes.toArray with
          | error flaws => exact .inl ⟨.flawed flaws, rfl⟩
          | ok graph =>
              obtain ⟨rfl, flawless⟩ := ofNodes_eq_ok_iff.mp made
              exact .inr (.inr ⟨nodes, rfl, flawless, rfl⟩)

theorem exists_of_jsonNodes {source : String} {found : Option (List Node)}
    (read : jsonNodes source = .ok found) :
    ∃ nodes, found = some nodes ∧
      ∀ node ∈ nodes, node.value.isFinite = true ∧ InWord node.id := by
  unfold jsonNodes at read
  split at read
  · cases read
  · rename_i value spelled
    cases whole : (JsonPart.document value).whole with
    | error fault =>
        rw [whole] at read
        cases read
    | ok nodes =>
        rw [whole] at read
        cases read
        exact ⟨nodes, rfl,
          JsonPart.gives_document value _ _ _ (PartRead.run_of_whole whole)⟩

theorem run_receiveJsonText (source : String) (receiver : Graph) :
    (∃ fault, (receiveJsonText source).run.run receiver = (.error fault, receiver)) ∨
      ∃ after, (receiveJsonText source).run.run receiver = (.ok (), after) ∧
        after.frozen = true ∧ after.flaws = [] ∧
          ∀ node ∈ after.nodes, node.value.isFinite = true ∧ InWord node.id := by
  rcases run_receive jsonNodes source receiver with
    ⟨fault, ran⟩ | ⟨none, -⟩ | ⟨nodes, found, flawless, ran⟩
  · exact .inl ⟨fault, ran⟩
  · obtain ⟨nodes, listed, -⟩ := exists_of_jsonNodes none
    cases listed
  · obtain ⟨listed, same, sound⟩ := exists_of_jsonNodes found
    cases same
    exact .inr ⟨_, ran, rfl, flawless, by simpa using sound⟩

/-- The last node is stored at its id, so that words for ids bound the number of nodes. -/
theorem size_le_of_inWord {graph : Graph} (flawless : graph.flaws = [])
    (word : ∀ node ∈ graph.nodes, InWord node.id) : graph.size ≤ 0x8000000000000000 := by
  by_contra more
  have inside : graph.nodes.size - 1 < graph.nodes.size := by
    have : graph.size = graph.nodes.size := rfl
    omega
  obtain ⟨node, found⟩ : ∃ node, graph.nodes[graph.nodes.size - 1]? = some node :=
    ⟨_, Array.getElem?_eq_getElem inside⟩
  rw [flaws, List.append_eq_nil_iff, List.append_eq_nil_iff] at flawless
  have own : node.id = (graph.nodes.size - 1 : ℕ) := by
    simpa [Node.placementDefects] using rule_eq_nil_of_flawsBy flawless.1.1 found
  have last := (word node (Array.mem_of_getElem? found)).2
  have size : graph.size = graph.nodes.size := rfl
  rw [own] at last
  omega

theorem jsonFields_withPlainZero (node : Node) :
    node.withPlainZero.jsonFields = node.jsonFields := by
  by_cases negative : node.value = -0.0
  · have plain : node.withPlainZero.value = 0.0 := if_pos negative
    have before : (node.value == 0.0) = true := (beq_zero_iff _).mpr (.inr negative)
    have after : (node.withPlainZero.value == 0.0) = true :=
      (beq_zero_iff _).mpr (.inl plain)
    simp only [Node.jsonFields, if_pos before, if_pos after]
    rfl
  · have kept : node.withPlainZero = node := by
      rw [Node.withPlainZero, plainZero, if_neg negative]
    rw [kept]

theorem jsonDocument_withPlainZero (nodes : List Node) :
    jsonDocument (nodes.map Node.withPlainZero) = jsonDocument nodes := by
  simp only [jsonDocument, List.map_map, Function.comp_def, jsonFields_withPlainZero]

theorem exists_jsonText_of_flawless {graph : Graph} (flawless : graph.flaws = [])
    (word : ∀ node ∈ graph.nodes, InWord node.id)
    (finite : ∀ node ∈ graph.nodes, node.value.isFinite = true) :
    ∃ text again, graph.jsonText = .ok text ∧ ofJsonText text = .ok again ∧
      again.nodes = graph.nodes.map Node.withPlainZero ∧ again.jsonText = .ok text := by
  have fits := size_le_of_inWord flawless word
  have exchangeable := exchangeable_of_flawless flawless fits
  have written := (jsonText_eq_ok_iff exchangeable).mpr ⟨finite, rfl⟩
  have read := ofJsonText_compact flawless exchangeable finite
  refine ⟨_, _, written, read, rfl, ?_⟩
  have stillFlawless : (Graph.mk (graph.nodes.map Node.withPlainZero) true).flaws =
      [] := by
    rw [flaws_withPlainZero]
    exact flawless
  have stillFits :
      (Graph.mk (graph.nodes.map Node.withPlainZero) true).size ≤ 0x8000000000000000 := by
    simpa [Graph.size] using fits
  rw [jsonText_eq_ok_iff (exchangeable_of_flawless stillFlawless stillFits)]
  constructor
  · intro node mem
    obtain ⟨before, before_mem, rfl⟩ := Array.mem_map.mp mem
    rw [Node.withPlainZero, plainZero]
    split
    · exact (by decide : (0.0 : Float).isFinite = true)
    · exact finite before before_mem
  · rw [Array.toList_map, jsonDocument_withPlainZero]

/-- A library finds no list of nodes exactly in the documents that it reads as null. -/
theorem yamlNodes_eq_none_iff {Symbol Document : Type} [DecidableEq Symbol]
    [SymbolType Symbol] {library : YamlLibrary Symbol Document} {document : Document} :
    yamlNodes library document = .ok none ↔
      ∃ tree, library.read? document = some tree ∧ tree.isNull = true := by
  unfold yamlNodes
  cases library.read? document with
  | none => simp
  | some tree =>
      cases null : tree.isNull with
      | true => simp [null]
      | false =>
          cases whole : (YamlPart.document tree).whole <;>
            simp [null, whole, Except.map]

/-- What is read as JSON is a frozen graph that keeps every rule, all of whose values are
finite, and whose written form is read and written again as it is.  Whatever reads YAML,
and whatever documents it reads, what comes of it is a frozen graph that keeps every rule,
but a document without a list of nodes changes nothing; with a library these are the
documents that it reads as null.  A document that is refused changes nothing either. -/
theorem reception_guarded :
    (∀ (source : String) (receiver : Graph),
      match (receiveJsonText source).run.run receiver with
      | (.error _, after) => after = receiver
      | (.ok _, after) =>
          after.frozen = true ∧ after.flaws = [] ∧
            (∀ node ∈ after.nodes, node.value.isFinite = true) ∧
            ∃ text again, after.jsonText = .ok text ∧ ofJsonText text = .ok again ∧
              again.nodes = after.nodes.map Node.withPlainZero ∧
                again.jsonText = .ok text) ∧
    ∀ {Symbol Document : Type} [DecidableEq Symbol] [SymbolType Symbol],
      (∀ (yaml : NodeReader Symbol Document) (document : Document)
        (receiver : Graph Symbol),
        match (receive yaml document).run.run receiver with
        | (.error _, after) => after = receiver
        | (.ok _, after) =>
            after.frozen = true ∧ after.flaws = [] ∨
              after = receiver ∧ yaml document = .ok none) ∧
      ∀ (library : YamlLibrary Symbol Document) (document : Document),
        yamlNodes library document = .ok none ↔
          ∃ tree, library.read? document = some tree ∧ tree.isNull = true := by
  constructor
  · intro source receiver
    rcases run_receiveJsonText source receiver with
      ⟨fault, ran⟩ | ⟨after, ran, frozen, flawless, sound⟩
    · rw [ran]
    · rw [ran]
      have finite : ∀ node ∈ after.nodes, node.value.isFinite = true :=
        fun node mem => (sound node mem).1
      exact ⟨frozen, flawless, finite,
        exists_jsonText_of_flawless flawless (fun node mem => (sound node mem).2) finite⟩
  · intro Symbol Document _ _
    refine ⟨fun yaml document receiver => ?_, fun _ _ => yamlNodes_eq_none_iff⟩
    rcases run_receive yaml document receiver with
      ⟨fault, ran⟩ | ⟨none, ran⟩ | ⟨nodes, -, flawless, ran⟩
    · rw [ran]
    · rw [ran]
      exact .inr ⟨rfl, none⟩
    · rw [ran]
      exact .inl ⟨rfl, flawless⟩

end Graph

end CostTape
