import CostTape.Graph.YamlForm
import CostTape.Proofs.Graph.Exchange
import CostTape.Proofs.Yaml.Number
import CostTape.Proofs.Yaml.Tree

/-! Graphs written as YAML and read back. -/

namespace CostTape

theorem eq_of_isFinite_eq_false {value : Float} (unbounded : value.isFinite = false) :
    value = 0.0 / 0.0 ∨ value = 1.0 / 0.0 ∨ value = -1.0 / 0.0 := by
  have packed := NumberLayout.eq_ofModel_pack_unpack value
  change value.toModel.unpack.isFinite = false at unbounded
  cases unpacked : value.toModel.unpack with
  | notANumber =>
      rw [packed, unpacked]
      exact .inl (by decide)
  | infinity sign =>
      rw [packed, unpacked]
      cases sign with
      | positive => exact .inr (.inl (by decide))
      | negative => exact .inr (.inr (by decide))
  | _ =>
      rw [unpacked] at unbounded
      cases unbounded

namespace YamlTree

theorem kept_int (number : ℤ) (word : InWord number) : Kept (int number) := by
  have numeral := YamlWord.isNumeral_toString number
  refine .word numeral.ne_empty numeral.allowsWord ?_
  rw [YamlWord.ofWord_toString word.1 word.2]
  simp

theorem kept_float {value : Float} (nonzero : (value == 0.0) = false) :
    Kept (float value) := by
  cases finite : value.isFinite with
  | true =>
      have denotes := NumberLayout.denotes_text numberLayout finite
      have bounded := ((NumberLayout.isFinite_iff value).mp finite).2
      have meaning := YamlWord.ofWord_of_denotes denotes bounded nonzero
      obtain ⟨negative, body, parts, shape, read, regular, -⟩ := denotes
      have numeral : YamlWord.IsNumeral _ negative body parts := ⟨shape, read, regular⟩
      refine .word numeral.ne_empty numeral.allowsWord ?_
      rcases meaning with found | ⟨number, found, -⟩ <;> simp [found]
  | false =>
      rcases eq_of_isFinite_eq_false finite with rfl | rfl | rfl <;>
        exact .word (by decide) (by decide) (by decide)

theorem kept_record {fields : List (String × YamlTree)}
    (names : ∀ name ∈ fields.map Prod.fst, IsName name)
    (kept : ∀ field ∈ fields, Kept field.2) : Kept (record fields) := by
  refine .mapping ?_ ?_ <;> intro entry member <;>
    obtain ⟨field, inside, rfl⟩ := List.mem_map.mp member
  · exact ⟨field.1, rfl, names _ (List.mem_map_of_mem inside)⟩
  · exact kept field inside

end YamlTree

namespace Graph.YamlPart

open YamlTree

variable {Symbol : Type}

theorem meaning_of_ne_text {body : String} (other : YamlWord.ofWord body ≠ .text) :
    meaning body = pure (YamlWord.ofWord body) := by
  rw [meaning, if_neg]
  intro merge
  rw [beq_iff_eq.mp merge] at other
  exact other (by decide)

theorem int_int (kept : ℤ) {number : ℤ} (word : InWord number) :
    int kept (.int number : YamlTree Symbol) = pure number := by
  have read := YamlWord.ofWord_toString word.1 word.2
  rw [YamlTree.int, int, meaning_of_ne_text (by rw [read]; simp), read, pure_bind]
  simp only [if_pos word.2]
  rfl

theorem float_float (kept : Float) {value : Float} (nonzero : (value == 0.0) = false) :
    float kept (.float value : YamlTree Symbol) = pure value := by
  cases finite : value.isFinite with
  | true =>
      have denotes := NumberLayout.denotes_text numberLayout finite
      have bounded := ((NumberLayout.isFinite_iff value).mp finite).2
      rw [YamlTree.float, float]
      rcases YamlWord.ofWord_of_denotes denotes bounded nonzero with
        read | ⟨number, read, same⟩
      · rw [meaning_of_ne_text (by rw [read]; simp), read, pure_bind]
      · rw [meaning_of_ne_text (by rw [read]; simp), read, pure_bind]
        simp only [same]
  | false =>
      have read {word : String} (found : YamlWord.ofWord word = .float value) :
          float kept (.word word : YamlTree Symbol) = pure value := by
        rw [float, meaning_of_ne_text (by rw [found]; simp), found, pure_bind]
      rcases eq_of_isFinite_eq_false finite with rfl | rfl | rfl <;>
        exact read (by decide)

/-- The items of a list are read one by one if none of them is null. -/
theorem list_map {item : YamlTree Symbol → PartRead β} {source : List α}
    {form : α → YamlTree Symbol} {result : α → β}
    (reads : ∀ part ∈ source, item (form part) = pure (result part))
    (filled : ∀ part ∈ source, (form part).isNull = false) :
    list item (.list (source.map form)) = pure (source.map result) := by
  rw [list]
  induction source with
  | nil => rfl
  | cons part source ih =>
      have others := ih (fun part mem => reads part (List.mem_cons_of_mem _ mem))
        fun part mem => filled part (List.mem_cons_of_mem _ mem)
      rw [List.map_cons,
        List.filter_cons_of_pos (by rw [filled part List.mem_cons_self]; rfl),
        List.mapM_cons, reads part List.mem_cons_self, others]
      rfl

variable [SymbolType Symbol]

theorem kind_text (kept : Kind) {named : Kind} (listed : named.isListed = true) :
    kind kept (.text (SymbolType.ofText named.name) : YamlTree Symbol) = pure named := by
  simp only [kind, SymbolType.text?_ofText, PartRead.kindNamed, Kind.ofName?_name listed]

theorem ofText_inj {first second : String}
    (same : (SymbolType.ofText first : Symbol) = SymbolType.ofText second) :
    first = second := by
  have texts := congrArg SymbolType.text? same
  simpa only [SymbolType.text?_ofText, Option.some.injEq] using texts

variable [DecidableEq Symbol]

theorem repeatsKey_record {fields : List (String × YamlTree Symbol)}
    (distinct : (fields.map Prod.fst).Nodup) :
    repeatsKey (fields.map fun (name, value) => (.text (SymbolType.ofText name), value)) =
      false := by
  induction fields with
  | nil => rfl
  | cons field fields ih =>
      rw [List.map_cons, List.nodup_cons] at distinct
      rw [List.map_cons, repeatsKey, ih distinct.2, Bool.or_false, List.any_eq_false]
      intro entry mem
      obtain ⟨other, inside, rfl⟩ := List.mem_map.mp mem
      intro same
      have named : field.1 = other.1 := ofText_inj (beq_iff_eq.mp same)
      exact distinct.1 (named ▸ List.mem_map_of_mem inside)

theorem mergedEntries_record (fields : List (String × YamlTree Symbol)) :
    mergedEntries (fields.map fun (name, value) =>
      (.text (SymbolType.ofText name), value)) = ⟨[], false, false⟩ := by
  induction fields with
  | nil => rfl
  | cons field fields ih =>
      obtain ⟨name, value⟩ := field
      rw [List.map_cons]
      cases value <;> simp only [mergedEntries, isMerge, Bool.false_eq_true, if_false, ih]

/-- The entries of a record are taken up one by one under their names. -/
theorem record_record {field : α → String → YamlTree Symbol → PartRead α} {blank : α}
    {fields : List (String × YamlTree Symbol)} (distinct : (fields.map Prod.fst).Nodup) :
    record field blank (.record fields) =
      fields.foldlM (fun kept entry => field kept entry.1 entry.2) blank := by
  have own : ∀ entry ∈ fields.map fun (name, value) =>
      ((.text (SymbolType.ofText name), value) : YamlTree Symbol × YamlTree Symbol),
      (!entry.1.isMerge) = true := by
    intro entry mem
    obtain ⟨field, -, rfl⟩ := List.mem_map.mp mem
    rfl
  have found : entries (.record fields) =
      ⟨fields.map fun (name, value) => (.text (SymbolType.ofText name), value), false,
        false⟩ := by
    rw [YamlTree.record, entries, repeatsKey_record distinct, mergedEntries_record,
      List.filter_eq_self.mpr own]
    simp [Entries.extend]
  have taken (kept : α) (name : String) (value : YamlTree Symbol) :
      entry field kept (.text (SymbolType.ofText name), value) =
        field kept name value := by
    simp only [entry, SymbolType.text?_ofText]
  rw [YamlTree.record] at found ⊢
  rw [record, found, List.foldlM_map]
  simp only [taken, Bool.false_eq_true, if_false, bind_pure]

end Graph.YamlPart

variable {Symbol : Type} [DecidableEq Symbol] [SymbolType Symbol]

namespace Node

/-- The fields of a node that can be written. -/
def yamlFields (node : Node Symbol) : List (String × YamlTree Symbol) :=
  [("id", YamlTree.int node.id),
    ("kind", YamlTree.text (SymbolType.ofText node.kind.name)),
    ("target", YamlTree.int node.target)] ++
    (if node.value == 0.0 then [] else [("value", YamlTree.float node.value)]) ++
    (if node.symbol == SymbolType.ofText "" then []
      else [("symbol", YamlTree.text node.symbol)]) ++
    if node.args.isEmpty then []
      else [("args", YamlTree.list (node.args.map YamlTree.int))]

theorem toYaml_eq {node : Node Symbol} (listed : node.kind.isListed = true) :
    node.toYaml = .ok (.record node.yamlFields) := by
  rw [toYaml, writtenKind, if_pos listed]
  rfl

theorem map_fst_yamlFields (node : Node Symbol) :
    node.yamlFields.map Prod.fst = node.writtenFields := by
  simp only [yamlFields, writtenFields, List.map_append]
  split <;> split <;> split <;> simp_all

theorem writtenFields_sublist (node : Node Symbol) :
    node.writtenFields.Sublist ["id", "kind", "target", "value", "symbol", "args"] := by
  have part {absent : Bool} {name : String} :
      (if absent then [] else [name]).Sublist [name] := by
    cases absent <;> simp
  exact (((List.Sublist.refl _).append part).append part).append part

theorem kept_yamlFields {node : Node} (exchangeable : node.Exchangeable)
    (keeps : YamlValue.KeepsText node.symbol) (unmarked : node.symbol ≠ "<<") :
    YamlTree.Kept (.record node.yamlFields) := by
  have isName : ∀ name ∈ ["id", "kind", "target", "value", "symbol", "args"],
      YamlTree.IsName name := by
    intro name member
    simp only [List.mem_cons, List.not_mem_nil, or_false] at member
    rcases member with rfl | rfl | rfl | rfl | rfl | rfl <;>
      exact ⟨by decide, by decide, by decide, by decide⟩
  refine YamlTree.kept_record (fun name member => isName name ?_) fun field member => ?_
  · exact node.writtenFields_sublist.subset (node.map_fst_yamlFields ▸ member)
  simp only [yamlFields, List.mem_append, List.mem_cons, List.not_mem_nil,
    or_false] at member
  rcases member with (((rfl | rfl | rfl) | valued) | named) | listing
  · exact YamlTree.kept_int _ exchangeable.id
  · have listed := exchangeable.listed
    cases kind : node.kind with
    | unlisted =>
        rw [kind] at listed
        cases listed
    | _ => exact .text (by decide) (by decide)
  · exact YamlTree.kept_int _ exchangeable.target
  · split at valued
    · cases valued
    · rename_i nonzero
      cases List.mem_singleton.mp valued
      exact YamlTree.kept_float (Bool.eq_false_iff.mpr nonzero)
  · split at named
    · cases named
    · cases List.mem_singleton.mp named
      exact .text keeps unmarked
  · split at listing
    · cases listing
    · cases List.mem_singleton.mp listing
      refine .list fun item member => ?_
      obtain ⟨number, inside, rfl⟩ := List.mem_map.mp member
      exact YamlTree.kept_int _ (exchangeable.args number inside)

end Node

namespace Graph

namespace YamlPart

open YamlTree

theorem nodeField_yamlFields {written : Node Symbol} (exchangeable : written.Exchangeable)
    (kept : Node Symbol) {name : String} {value : YamlTree Symbol}
    (member : (name, value) ∈ written.yamlFields) :
    nodeField kept name value = pure (written.copyField kept name) := by
  simp only [Node.yamlFields, List.mem_append, List.mem_cons, Prod.mk.injEq,
    List.not_mem_nil, or_false] at member
  rcases member with (((⟨rfl, rfl⟩ | ⟨rfl, rfl⟩ | ⟨rfl, rfl⟩) | valued) | named) | listing
  · simp only [nodeField, int_int _ exchangeable.id, pure_bind]
    rfl
  · simp only [nodeField, kind_text _ exchangeable.listed, pure_bind]
    rfl
  · simp only [nodeField, int_int _ exchangeable.target, pure_bind]
    rfl
  · split at valued
    · cases valued
    · rename_i nonzero
      cases List.mem_singleton.mp valued
      simp only [nodeField, float_float _ (Bool.eq_false_iff.mpr nonzero), pure_bind]
      rfl
  · split at named
    · cases named
    · cases List.mem_singleton.mp named
      rfl
  · split at listing
    · cases listing
    · cases List.mem_singleton.mp listing
      have filled : ∀ arg ∈ written.args, (YamlTree.int arg : YamlTree Symbol).isNull =
          false := by
        intro arg inside
        have word := exchangeable.args arg inside
        rw [YamlTree.int, isNull, YamlWord.ofWord_toString word.1 word.2]
        rfl
      have taken : list (int 0) (.list (written.args.map .int) : YamlTree Symbol) =
          pure (written.args.map fun arg => arg) :=
        list_map (fun arg inside => int_int 0 (exchangeable.args arg inside)) filled
      rw [List.map_id'] at taken
      simp only [nodeField, taken, pure_bind]
      rfl

theorem node_yamlFields {written : Node Symbol} (exchangeable : written.Exchangeable) :
    node (YamlTree.record written.yamlFields) = pure written.withPlainZero := by
  have distinct : (written.yamlFields.map Prod.fst).Nodup := by
    rw [written.map_fst_yamlFields]
    exact List.Nodup.sublist written.writtenFields_sublist (by decide)
  have reads : ∀ kept : Node Symbol, True → ∀ field ∈ written.yamlFields,
      nodeField kept field.1 field.2 = pure (written.copyField kept field.1) ∧ True :=
    fun kept _ field member => ⟨nodeField_yamlFields exchangeable kept member, trivial⟩
  rw [node, record_record distinct, PartRead.foldlM_eq_pure _ trivial reads,
    ← written.foldl_copyField, ← written.map_fst_yamlFields, List.foldl_map]

end YamlPart

/-- The document of nodes that can be written. -/
def yamlDocument (nodes : List (Node Symbol)) : YamlTree Symbol :=
  .record [("nodes", .list (nodes.map fun node => .record node.yamlFields))]

theorem toYaml_eq {graph : Graph Symbol}
    (listed : ∀ node ∈ graph.nodes, node.kind.isListed = true) :
    graph.toYaml = .ok (yamlDocument graph.nodes.toList) := by
  have rows (nodes : List (Node Symbol))
      (listed : ∀ node ∈ nodes, node.kind.isListed = true) :
      nodes.mapM Node.toYaml = .ok (nodes.map fun node => .record node.yamlFields) := by
    induction nodes with
    | nil => rfl
    | cons node nodes ih =>
        rw [List.mapM_cons, Node.toYaml_eq (listed node List.mem_cons_self),
          ih fun node mem => listed node (List.mem_cons_of_mem _ mem)]
        rfl
  rw [toYaml, rows _ fun node mem => listed node (by simpa using mem)]
  rfl

theorem document_yamlDocument {nodes : List (Node Symbol)}
    (exchangeable : ∀ node ∈ nodes, node.Exchangeable) :
    YamlPart.document (yamlDocument nodes) = pure (nodes.map Node.withPlainZero) := by
  rw [YamlPart.document, yamlDocument, YamlPart.record_record (by simp)]
  simp only [List.foldlM_cons, List.foldlM_nil, bind_pure]
  rw [if_pos (by decide)]
  exact YamlPart.list_map (fun node mem =>
    YamlPart.node_yamlFields (exchangeable node mem)) fun _ _ => rfl

/-- A graph without flaws has a written form, whatever its values and its symbols are.  If
the library reads each scalar, list and mapping of it as what was written, what is read
from it is the frozen graph of the same nodes, but for the sign of zeros. -/
theorem yaml_round_trip {Document : Type} (library : YamlLibrary Symbol Document)
    (graph : Graph Symbol) (flawless : graph.flaws = [])
    (fits : graph.size ≤ 0x8000000000000000)
    (readsBack : ∀ tree, graph.toYaml = .ok tree → library.ReadsBack tree) :
    ∃ document, graph.writeYaml library = .ok document ∧
      ofYaml library document = .ok ⟨graph.nodes.map Node.withPlainZero, true⟩ := by
  have exchangeable := exchangeable_of_flawless flawless fits
  have written := toYaml_eq fun node mem => (exchangeable node mem).listed
  refine ⟨library.write (yamlDocument graph.nodes.toList), ?_, ?_⟩
  · rw [writeYaml, written]
    rfl
  · have read : library.read? _ = _ := readsBack _ written
    have listed := @document_yamlDocument Symbol _ _ graph.nodes.toList
      (by simpa using exchangeable)
    have filled : (yamlDocument graph.nodes.toList).isNull = false := rfl
    have found : yamlNodes library (library.write (yamlDocument graph.nodes.toList)) =
        .ok (some (graph.nodes.toList.map Node.withPlainZero)) := by
      simp only [yamlNodes, read, filled, listed, Bool.false_eq_true, if_false]
      rfl
    rw [ofYaml, receive, found]
    exact fresh_store flawless

/-- The library of blocks reads back what it writes for symbols that it keeps. -/
theorem readsBack_of_keepsText {graph : Graph} (flawless : graph.flaws = [])
    (fits : graph.size ≤ 0x8000000000000000)
    (keeps : ∀ node ∈ graph.nodes, YamlValue.KeepsText node.symbol ∧ node.symbol ≠ "<<") :
    ∀ tree, graph.toYaml = .ok tree → (YamlLibrary.blocks 4).ReadsBack tree := by
  intro tree written
  have exchangeable := exchangeable_of_flawless flawless fits
  rw [toYaml_eq fun node mem => (exchangeable node mem).listed] at written
  cases written
  have kept : YamlTree.Kept (yamlDocument graph.nodes.toList) := by
    refine YamlTree.kept_record ?_ fun field member => ?_
    · simp only [List.map_cons, List.map_nil, List.mem_singleton, forall_eq]
      exact ⟨by decide, by decide, by decide, by decide⟩
    · cases List.mem_singleton.mp member
      refine .list fun item member => ?_
      obtain ⟨node, inside, rfl⟩ := List.mem_map.mp member
      have mem : node ∈ graph.nodes := by simpa using inside
      exact Node.kept_yamlFields (exchangeable node mem)
        (keeps node mem).1 (keeps node mem).2
  exact YamlTree.readsBack_blocks (by norm_num) kept

/-- A trace with values that are not finite, a negative zero, and symbols that are written
as a block, between quotes and with escapes. -/
def quotedTrace : Graph where
  nodes := #[⟨0, .constant, 0, 0.0 / 0.0, "", []⟩, ⟨1, .constant, 1, 1.0 / 0.0, "", []⟩,
    ⟨2, .constant, 2, -1.0 / 0.0, "", []⟩, ⟨3, .constant, 3, -0.0, "", []⟩,
    ⟨4, .constant, 4, 1e21, "", []⟩, ⟨5, .call, 5, 0.0, "if\n  then\n\n", [0, 1, 2]⟩,
    ⟨6, .call, 6, 0.0, "- a: 'b' #c", [3, 5]⟩, ⟨7, .call, 7, 0.0, "\u2028 \n\\\"", [6]⟩,
    ⟨8, .call, 8, 0.0, "~", []⟩, ⟨9, .assignment, 4, 0.0, "", [8]⟩]
  frozen := false

theorem quotedTrace_round_trip :
    quotedTrace.flaws = [] ∧ quotedTrace.size ≤ 0x8000000000000000 ∧
      (∀ tree, quotedTrace.toYaml = .ok tree → (YamlLibrary.blocks 4).ReadsBack tree) ∧
      ∃ document, quotedTrace.writeYaml (.blocks 4) = .ok document ∧
        ofYaml (.blocks 4) document = .ok ⟨quotedTrace.nodes.map Node.withPlainZero,
          true⟩ := by
  have flawless : quotedTrace.flaws = [] := by decide +kernel
  have fits : quotedTrace.size ≤ 0x8000000000000000 := by decide
  have readsBack := readsBack_of_keepsText flawless fits (by decide +kernel)
  exact ⟨flawless, fits, readsBack, yaml_round_trip _ quotedTrace flawless fits readsBack⟩

end Graph

end CostTape
