import CostTape.Graph.JsonForm
import CostTape.Proofs.Graph.Exchange
import CostTape.Proofs.Json.RoundTrip

/-! Graphs written as JSON and read back. -/

namespace CostTape

open Decimal

namespace JsonValue

theorem isNumber_of_regular {body : List Char} {parts : Parts} (regular : parts.Regular)
    (read : Parts.ofChars? body = some parts) (negative : Bool) :
    isNumber (if negative then '-' :: body else body) = true := by
  have shape : (if (if negative then '-' :: body else body).head? == some '-' then
      (if negative then '-' :: body else body).drop 1
      else if negative then '-' :: body else body) = body := by
    cases negative with
    | true => rfl
    | false =>
        obtain ⟨first, rest, rfl, digit⟩ := regular.exists_cons read
        have other : first ≠ '-' := by
          rintro rfl
          cases digit
        simp [other]
  have lead : (parts.whole.length == 1 || parts.whole.head? != some '0') = true := by
    simpa using regular.no_zero
  have point : (!parts.hasPoint || !parts.fraction.isEmpty) = true := by
    cases pointed : parts.hasPoint with
    | true => simp [regular.some_fraction pointed]
    | false => rfl
  simp only [isNumber, shape, read, lead, point, Bool.and_true]
  simp [regular.some_whole]

end JsonValue

namespace Graph

namespace JsonPart

theorem intOf?_toString {number : ℤ} (word : InWord number) :
    intOf? (toString number) = some number := by
  rw [intOf?, toList_toString_int,
    splitSign_of_regular (regular_toString _) (ofChars?_toString _)]
  have value :
      (if decide (number < 0) = true then -(number.natAbs : ℤ) else number.natAbs) =
      number := by
    simp only [decide_eq_true_eq]
    split <;> omega
  simp only [all_isDigit_toString, if_true, natValue_toString, value]
  exact if_pos word

theorem floatOf?_text {value : Float} (finite : value.isFinite = true) :
    floatOf? (JsonValue.numberLayout.text value) = some value := by
  have read :=
    readChars?_of_denotes (NumberLayout.denotes_text JsonValue.numberLayout finite)
  rw [floatOf?, read, Option.bind_some, ((NumberLayout.isFinite_iff value).mp finite).2]
  rfl

theorem int_int (kept : ℤ) {number : ℤ} (word : InWord number) :
    int kept (.int number) = pure number := by
  rw [JsonValue.int, int, intOf?_toString word]
  rfl

/-- On a shelf that is no longer than the list, the list is read as it stands. -/
theorem array_of_length_le {item : α → JsonValue → PartRead α} {blank : α}
    {kept found : List α} {values : List JsonValue} (some_value : values ≠ [])
    (room : kept.length ≤ values.length)
    (read : items item blank kept values = pure found) :
    array item blank ⟨kept, []⟩ (.array values) = pure ⟨found, []⟩ := by
  have covered : kept.drop values.length = [] := List.drop_eq_nil_of_le room
  obtain ⟨value, values, rfl⟩ := List.exists_cons_of_ne_nil some_value
  rw [array]
  · simp only [List.append_nil, read, pure_bind, covered]
  · simp

theorem items_int (kept : List ℤ) {numbers : List ℤ}
    (word : ∀ number ∈ numbers, InWord number) :
    items int 0 kept (numbers.map JsonValue.int) = pure numbers := by
  induction numbers generalizing kept with
  | nil => rfl
  | cons number numbers ih =>
      rw [List.map_cons, items, int_int _ (word _ List.mem_cons_self), pure_bind,
        ih _ fun number mem => word number (List.mem_cons_of_mem _ mem), pure_bind]

end JsonPart

end Graph

namespace Node

/-- The fields of a node that can be written. -/
def jsonFields (node : Node) : List (String × JsonValue) :=
  [("id", JsonValue.int node.id), ("kind", JsonValue.text node.kind.name),
    ("target", JsonValue.int node.target)] ++
    (if node.value == 0.0 then []
      else [("value", JsonValue.number (JsonValue.numberLayout.text node.value))]) ++
    (if node.symbol == "" then [] else [("symbol", JsonValue.text node.symbol)]) ++
    if node.args.isEmpty then []
      else [("args", JsonValue.array (node.args.map JsonValue.int))]

theorem toJson_eq {node : Node} (listed : node.kind.isListed = true) :
    node.toJson =
      if node.value.isFinite = true then .ok (.object node.jsonFields)
      else .error (.unwritableValue node.value) := by
  rw [toJson, writtenKind, if_pos listed]
  by_cases zero : (node.value == 0.0) = true
  · rw [if_pos (isFinite_of_beq_zero zero)]
    simp [jsonFields, zero]
  · by_cases finite : node.value.isFinite = true
    · obtain ⟨number, bounded⟩ := (NumberLayout.isFinite_iff node.value).mp finite
      have written : JsonValue.float? node.value =
          some (.number (JsonValue.numberLayout.text node.value)) := by
        rw [JsonValue.float?, number, bounded]
        rfl
      rw [if_pos finite]
      simp [jsonFields, zero, written]
    · have unwritten : JsonValue.float? node.value = none := by
        rw [NumberLayout.isFinite_iff] at finite
        cases number : node.value.isNaN <;> cases bounded : node.value.isInf <;>
          simp_all [JsonValue.float?]
      rw [if_neg finite]
      simp only [zero, unwritten]
      rfl

end Node

namespace Graph

namespace JsonPart

/-- Nothing is behind the arguments, and there are no more than are to come. -/
def Draft.HasRoom (draft : Draft) (written : Node) : Prop :=
  draft.spareArgs = [] ∧ draft.node.args.length ≤ written.args.length

theorem nodeField_jsonFields {written : Node} (exchangeable : written.Exchangeable)
    (finite : written.value.isFinite = true) {draft : Draft}
    (room : draft.HasRoom written) {name : String} {value : JsonValue}
    (member : (name, value) ∈ written.jsonFields) :
    nodeField draft name value = pure ⟨written.copyField draft.node name, []⟩ := by
  obtain ⟨kept, spare⟩ := draft
  obtain ⟨rfl, short⟩ := room
  simp only [Node.jsonFields, List.mem_append, List.mem_cons, Prod.mk.injEq,
    List.not_mem_nil, or_false] at member
  rcases member with (((⟨rfl, rfl⟩ | ⟨rfl, rfl⟩ | ⟨rfl, rfl⟩) | valued) | named) | listing
  · rw [nodeField, if_pos (by decide), int_int _ exchangeable.id]
    rfl
  · rw [nodeField, if_neg (by decide), if_pos (by decide), kind, PartRead.kindNamed,
      Kind.ofName?_name exchangeable.listed]
    rfl
  · rw [nodeField, if_neg (by decide), if_neg (by decide), if_pos (by decide),
      int_int _ exchangeable.target]
    rfl
  · split at valued
    · cases valued
    · cases List.mem_singleton.mp valued
      rw [nodeField, if_neg (by decide), if_neg (by decide), if_neg (by decide),
        if_pos (by decide), float, floatOf?_text finite]
      rfl
  · split at named
    · cases named
    · cases List.mem_singleton.mp named
      rw [nodeField, if_neg (by decide), if_neg (by decide), if_neg (by decide),
        if_neg (by decide), if_pos (by decide)]
      rfl
  · split at listing
    · cases listing
    · rename_i filled
      cases List.mem_singleton.mp listing
      rw [nodeField, if_neg (by decide), if_neg (by decide), if_neg (by decide),
        if_neg (by decide), if_neg (by decide), if_pos (by decide),
        array_of_length_le (by simpa using filled) (by simpa using short)
          (items_int kept.args exchangeable.args)]
      rfl

theorem length_args_copyField {written kept : Node}
    (short : kept.args.length ≤ written.args.length) (name : String) :
    (written.copyField kept name).args.length ≤ written.args.length := by
  unfold Node.copyField
  split <;> first | exact short | exact Nat.le_refl _

theorem node_object_jsonFields {written : Node} (exchangeable : written.Exchangeable)
    (finite : written.value.isFinite = true) :
    node .blank (.object written.jsonFields) = pure ⟨written.withPlainZero, []⟩ := by
  have names : written.jsonFields.map Prod.fst = written.writtenFields := by
    simp only [Node.jsonFields, Node.writtenFields, List.map_append]
    split <;> split <;> split <;> simp_all
  have room : Draft.blank.HasRoom written := ⟨rfl, Nat.zero_le _⟩
  have reads : ∀ draft : Draft, draft.HasRoom written → ∀ field ∈ written.jsonFields,
      nodeField draft field.1 field.2 =
          pure ⟨written.copyField draft.node field.1, []⟩ ∧
        Draft.HasRoom ⟨written.copyField draft.node field.1, []⟩ written :=
    fun draft room field member =>
      ⟨nodeField_jsonFields exchangeable finite room member, rfl,
        length_args_copyField room.2 field.1⟩
  rw [node, PartRead.foldlM_eq_pure (·.HasRoom written) room reads,
    ← written.foldl_copyField, ← names, List.foldl_map]
  exact congrArg pure (List.foldl_hom (fun kept => Draft.mk kept []) fun _ _ => rfl)

theorem items_node {nodes : List Node} (exchangeable : ∀ node ∈ nodes, node.Exchangeable)
    (finite : ∀ node ∈ nodes, node.value.isFinite = true) :
    items node .blank [] (nodes.map fun node => .object node.jsonFields) =
      pure (nodes.map fun node => ⟨node.withPlainZero, []⟩) := by
  induction nodes with
  | nil => rfl
  | cons first nodes ih =>
      rw [List.map_cons, items, List.headD_nil, List.tail_nil,
        node_object_jsonFields (exchangeable _ List.mem_cons_self)
          (finite _ List.mem_cons_self),
        pure_bind, ih (fun node mem => exchangeable node (List.mem_cons_of_mem _ mem))
          (fun node mem => finite node (List.mem_cons_of_mem _ mem)), pure_bind,
          List.map_cons]

end JsonPart

/-- The document of nodes that can be written. -/
def jsonDocument (nodes : List Node) : JsonValue :=
  .object [("nodes", .array (nodes.map fun node => .object node.jsonFields))]

theorem document_jsonDocument {nodes : List Node}
    (exchangeable : ∀ node ∈ nodes, node.Exchangeable)
    (finite : ∀ node ∈ nodes, node.value.isFinite = true) :
    JsonPart.document (jsonDocument nodes) = pure (nodes.map Node.withPlainZero) := by
  have read : JsonPart.array JsonPart.node .blank ⟨[], []⟩
      (.array (nodes.map fun node => .object node.jsonFields)) =
      pure ⟨nodes.map fun node => ⟨node.withPlainZero, []⟩, []⟩ := by
    by_cases none : nodes = []
    · subst none
      rfl
    · exact JsonPart.array_of_length_le (by simpa using none) (Nat.zero_le _)
        (JsonPart.items_node exchangeable finite)
  rw [jsonDocument, JsonPart.document]
  simp only [List.foldlM_cons, List.foldlM_nil, bind_pure, JsonPart.documentField]
  rw [if_pos (by decide), read, pure_bind, List.map_map]
  rfl

theorem fits_int (depth : ℕ) (number : ℤ) : JsonValue.Fits depth (.int number) := by
  refine .number depth ?_
  rw [toList_toString_int]
  exact JsonValue.isNumber_of_regular (regular_toString _) (ofChars?_toString _) _

theorem fits_float (depth : ℕ) {value : Float} (finite : value.isFinite = true) :
    JsonValue.Fits depth (.number (JsonValue.numberLayout.text value)) := by
  obtain ⟨negative, body, parts, chars, read, regular, -⟩ :=
    NumberLayout.denotes_text JsonValue.numberLayout finite
  refine .number depth ?_
  rw [chars]
  exact JsonValue.isNumber_of_regular regular read negative

theorem fits_jsonFields (depth : ℕ) {written : Node}
    (finite : written.value.isFinite = true) :
    JsonValue.Fits (depth + 2) (.object written.jsonFields) := by
  refine .object fun field member => ?_
  simp only [Node.jsonFields, List.mem_append, List.mem_cons, List.not_mem_nil,
    or_false] at member
  rcases member with (((rfl | rfl | rfl) | valued) | named) | listed
  · exact fits_int _ _
  · exact .text _ _
  · exact fits_int _ _
  · split at valued
    · cases valued
    · cases List.mem_singleton.mp valued
      exact fits_float _ finite
  · split at named
    · cases named
    · cases List.mem_singleton.mp named
      exact .text _ _
  · split at listed
    · cases listed
    · cases List.mem_singleton.mp listed
      refine .array fun item member => ?_
      obtain ⟨number, -, rfl⟩ := List.mem_map.mp member
      exact fits_int _ _

theorem fits_jsonDocument (depth : ℕ) {nodes : List Node}
    (finite : ∀ node ∈ nodes, node.value.isFinite = true) :
    JsonValue.Fits (depth + 4) (jsonDocument nodes) := by
  refine .object fun field member => ?_
  cases List.mem_singleton.mp member
  refine .array fun item member => ?_
  obtain ⟨node, mem, rfl⟩ := List.mem_map.mp member
  exact fits_jsonFields depth (finite node mem)

theorem mapM_toJson_eq_ok_iff {nodes : List Node}
    (exchangeable : ∀ node ∈ nodes, node.Exchangeable) {values : List JsonValue} :
    nodes.mapM Node.toJson = .ok values ↔
      (∀ node ∈ nodes, node.value.isFinite = true) ∧
        values = nodes.map fun node => .object node.jsonFields := by
  induction nodes generalizing values with
  | nil =>
      rw [List.mapM_nil]
      constructor
      · intro written
        cases written
        simp
      · rintro ⟨-, rfl⟩
        rfl
  | cons node nodes ih =>
      have others := @ih fun node mem => exchangeable node (List.mem_cons_of_mem _ mem)
      rw [List.mapM_cons, Node.toJson_eq (exchangeable node List.mem_cons_self).listed]
      by_cases first : node.value.isFinite = true
      · rw [if_pos first]
        constructor
        · intro written
          cases rest : nodes.mapM Node.toJson with
          | error fault =>
              rw [rest] at written
              cases written
          | ok more =>
              rw [rest] at written
              cases written
              obtain ⟨finite, rfl⟩ := others.mp rest
              exact ⟨List.forall_mem_cons.mpr ⟨first, finite⟩, rfl⟩
        · rintro ⟨finite, rfl⟩
          rw [others.mpr ⟨(List.forall_mem_cons.mp finite).2, rfl⟩]
          rfl
      · rw [if_neg first]
        constructor
        · intro written
          cases written
        · rintro ⟨finite, -⟩
          exact absurd (List.forall_mem_cons.mp finite).1 first

theorem jsonText_eq_ok_iff {graph : Graph}
    (exchangeable : ∀ node ∈ graph.nodes, node.Exchangeable) {text : String} :
    graph.jsonText = .ok text ↔
      (∀ node ∈ graph.nodes, node.value.isFinite = true) ∧
        text = (jsonDocument graph.nodes.toList).compact := by
  have rows := @mapM_toJson_eq_ok_iff graph.nodes.toList (by simpa using exchangeable)
  rw [jsonText, toJson]
  constructor
  · intro written
    cases found : graph.nodes.toList.mapM Node.toJson with
    | error fault =>
        rw [found] at written
        cases written
    | ok values =>
        rw [found] at written
        cases written
        obtain ⟨finite, rfl⟩ := rows.mp found
        exact ⟨by simpa using finite, rfl⟩
  · rintro ⟨finite, rfl⟩
    rw [rows.mpr ⟨by simpa using finite, rfl⟩]
    rfl

theorem ofJsonText_compact {nodes : Array Node} {frozen : Bool}
    (flawless : (Graph.mk nodes frozen).flaws = [])
    (exchangeable : ∀ node ∈ nodes, node.Exchangeable)
    (finite : ∀ node ∈ nodes, node.value.isFinite = true) :
    ofJsonText (jsonDocument nodes.toList).compact =
      .ok ⟨nodes.map Node.withPlainZero, true⟩ := by
  have listFinite : ∀ node ∈ nodes.toList, node.value.isFinite = true := by
    simpa using finite
  have read := JsonValue.read?_compact (fits_jsonDocument 9996 listFinite)
  have nodes_read := document_jsonDocument (by simpa using exchangeable) listFinite
  have found : jsonNodes (jsonDocument nodes.toList).compact =
      .ok (some (nodes.toList.map Node.withPlainZero)) := by
    simp only [jsonNodes, read, nodes_read]
    rfl
  rw [ofJsonText, receiveJsonText, receive, found]
  exact fresh_store flawless

/-- A graph without flaws has a written form exactly if its values are finite, and what is
read from it is the frozen graph of the same nodes, but for the sign of zeros.  Places are
machine words, so that there are no more than `2 ^ 63` nodes. -/
theorem json_round_trip (graph : Graph) (flawless : graph.flaws = [])
    (fits : graph.size ≤ 0x8000000000000000) :
    ((∃ text, graph.jsonText = .ok text) ↔
        ∀ node ∈ graph.nodes, node.value.isNaN = false ∧ node.value.isInf = false) ∧
      ∀ text, graph.jsonText = .ok text →
        ofJsonText text = .ok ⟨graph.nodes.map Node.withPlainZero, true⟩ := by
  have exchangeable := exchangeable_of_flawless flawless fits
  constructor
  · simp only [jsonText_eq_ok_iff exchangeable, exists_and_left, exists_eq, and_true,
      NumberLayout.isFinite_iff]
  · intro text written
    obtain ⟨finite, rfl⟩ := (jsonText_eq_ok_iff exchangeable).mp written
    exact ofJsonText_compact flawless exchangeable finite

/-- A trace with a negative zero, a tiny constant and a symbol full of characters that are
escaped. -/
def escapedTrace : Graph where
  nodes := #[⟨0, .constant, 0, -0.0, "", []⟩, ⟨1, .constant, 1, 5e-324, "", []⟩,
    ⟨2, .call, 2, 0.0, "<\"\\\n\u2028&é>", [0, 1, 0]⟩, ⟨3, .assignment, 1, 0.0, "", [2]⟩]
  frozen := false

theorem escapedTrace_round_trip :
    escapedTrace.flaws = [] ∧ escapedTrace.size ≤ 0x8000000000000000 ∧
      ∃ text, escapedTrace.jsonText = .ok text ∧
        ofJsonText text = .ok ⟨escapedTrace.nodes.map Node.withPlainZero, true⟩ := by
  have flawless : escapedTrace.flaws = [] := by decide +kernel
  have fits : escapedTrace.size ≤ 0x8000000000000000 := by decide
  obtain ⟨text, written⟩ := (json_round_trip escapedTrace flawless fits).1.mpr
    (by decide +kernel)
  exact ⟨flawless, fits, text, written,
    (json_round_trip escapedTrace flawless fits).2 text written⟩

end Graph

end CostTape
