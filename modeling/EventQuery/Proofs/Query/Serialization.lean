import EventQuery.Proofs.Json.Conformance
import EventQuery.Proofs.Query.Depth
import EventQuery.Proofs.Query.Nodes
import EventQuery.Query.Json

set_option autoImplicit false

namespace EventQuery

theorem Comparison.ofJsonName?_jsonName (c : Comparison) : ofJsonName? c.jsonName = some c := by
  cases c <;> decide

/-- Offsets are 64-bit numbers. -/
structure Span.Fits (s : Span) : Prop where
  start : s.start.offset ≤ Query.greatestOffset
  stop : s.stop.offset ≤ Query.greatestOffset

instance (s : Span) : Decidable s.Fits :=
  decidable_of_iff
    (s.start.offset ≤ Query.greatestOffset ∧ s.stop.offset ≤ Query.greatestOffset)
    ⟨fun ⟨start, stop⟩ => ⟨start, stop⟩, fun fits => ⟨fits.start, fits.stop⟩⟩

namespace Query

variable {lib : Json.Library}

section Parts

variable (conforms : lib.Conforms)

include conforms

theorem readToken?_toJson (t : Token) (depth : Nat) :
    readToken? lib (depth + 1) (t.toJson lib) = some t := by
  cases t with
  | comparison op =>
    simp [Token.toJson, Token.jsonName, readToken?, conforms.variant?_newtypeVariant,
      readComparison?, plainVariant?, conforms.variant?_unitVariant,
      Comparison.ofJsonName?_jsonName]
  | relation text | word text | connective text | number text | comment text =>
    simp [Token.toJson, Token.jsonName, readToken?, conforms.variant?_newtypeVariant,
      conforms.string?_string, Token.withTextOfName?, Token.withText]
  | _ =>
    simp [Token.toJson, readToken?, conforms.variant?_unitVariant, Token.plainOfName?,
      Token.plain, Token.jsonName]

theorem nat?_toNat (n : UInt32) : lib.nat? greatestColumn (lib.nat n.toNat) = some n.toNat :=
  conforms.nat?_nat (Nat.le_pred_of_lt n.toNat_lt)

theorem readPosition?_toJson {p : Position} (fits : p.offset ≤ greatestOffset) (depth : Nat) :
    readPosition? lib (depth + 1) (p.toJson lib) = some p := by
  have fields : lib.fields? ["offset", "line", "column"] (p.toJson lib) =
      some [some (lib.nat p.offset), some (lib.nat p.line.toNat), some (lib.nat p.column.toNat)] :=
    conforms.fields?_record rfl (by decide)
  simp [readPosition?, fields, conforms.nat?_nat fits, nat?_toNat conforms]

theorem readSpan?_toJson {s : Span} (fits : s.Fits) (depth : Nat) :
    readSpan? lib (depth + 2) (s.toJson lib) = some s := by
  have fields : lib.fields? ["start", "end"] (s.toJson lib) =
      some [some (s.start.toJson lib), some (s.stop.toJson lib)] :=
    conforms.fields?_record rfl (by decide)
  simp [readSpan?, fields, readPosition?_toJson conforms fits.start,
    readPosition?_toJson conforms fits.stop]

theorem readToken?_tokenToJson {token : Option (Located Token)}
    (fits : ∀ t ∈ token, t.span.Fits) (depth : Nat) :
    lib.optional? (readLocated? lib (depth + 3)) (some (tokenToJson lib token)) = some token := by
  cases token with
  | none => rw [Json.Library.optional?, tokenToJson, conforms.present?_null]
  | some t =>
    have fields : lib.fields? ["value", "span"] (tokenToJson lib (some t)) =
        some [some (t.value.toJson lib), some (t.span.toJson lib)] :=
      conforms.fields?_record rfl (by decide)
    have read : readLocated? lib (depth + 3) (tokenToJson lib (some t)) = some t := by
      simp [readLocated?, fields, readToken?_toJson conforms,
        readSpan?_toJson conforms (fits t rfl)]
    have present : tokenToJson lib (some t) ≠ .null := by
      rw [tokenToJson, conforms.record_eq]
      exact Json.noConfusion
    rw [Json.Library.optional?, conforms.present?_other present]
    simp only [read, Option.map_some]

theorem optional?_numberToJson (value : Option Float) :
    lib.optional? lib.float? (some (numberToJson lib value)) = some (value.bind lib.reread) := by
  cases value with
  | none => rw [Json.Library.optional?, numberToJson, conforms.present?_null, Option.bind_none]
  | some x =>
    rw [Json.Library.optional?, numberToJson, Option.bind_some, Json.Library.reread]
    cases finite : x.isFinite with
    | false =>
      rw [conforms.float_other finite, conforms.present?_null]
      rfl
    | true =>
      obtain ⟨written, same, _, read⟩ := conforms.float_finite finite
      obtain ⟨y, found⟩ := Option.isSome_iff_exists.mp read
      rw [same, conforms.present?_other Json.noConfusion, if_pos rfl]
      simp only [found, Option.map_some]

end Parts

mutual

/-- The tree with what becomes of its numbers. -/
def mapValues (change : Float → Option Float) : Query → Query
  | node kind children token value =>
    .node kind (mapValuesAll change children) token (value.bind change)

def mapValuesAll (change : Float → Option Float) : List Query → List Query
  | [] => []
  | q :: rest => mapValues change q :: mapValuesAll change rest

end

theorem mapValuesAll_eq (change : Float → Option Float) (children : List Query) :
    mapValuesAll change children = children.map (mapValues change) := by
  induction children with
  | nil => rfl
  | cons q rest ih => rw [mapValuesAll, ih, List.map_cons]

theorem mapValues_node (change : Float → Option Float) (kind : Kind) (children : List Query)
    (token : Option (Located Token)) (value : Option Float) :
    (node kind children token value).mapValues change =
      .node kind (children.map (mapValues change)) token (value.bind change) := by
  rw [mapValues, mapValuesAll_eq]

theorem Kind.ofJsonName?_jsonName (k : Kind) : ofJsonName? k.jsonName = some k := by
  cases k <;> decide +kernel

theorem toJsonAll_eq (children : List Query) :
    toJsonAll lib children = children.map (toJson lib) := by
  induction children with
  | nil => rfl
  | cons q rest ih => rw [toJsonAll, ih, List.map_cons]

theorem toJson_node (kind : Kind) (children : List Query) (token : Option (Located Token))
    (value : Option Float) :
    (node kind children token value).toJson lib =
      lib.record [("kind", lib.unitVariant kind.jsonName),
        ("children", lib.row (children.map (toJson lib))), ("token", tokenToJson lib token),
        ("value", numberToJson lib value)] := by
  rw [toJson, toJsonAll_eq]

/-- The tokens in the nodes of the tree lie where JSON can write their places. -/
def Placeable (q : Query) : Prop := ∀ n ∈ q.nodes, ∀ t ∈ n.token, t.span.Fits

theorem Placeable.child {kind : Kind} {children : List Query} {token : Option (Located Token)}
    {value : Option Float} (whole : Placeable (.node kind children token value)) {child : Query}
    (member : child ∈ children) : Placeable child :=
  fun n inside => whole n (mem_nodes_of_child member inside)

section Trees

variable (conforms : lib.Conforms)

include conforms

/-- A node takes two levels of the document, and the deepest tokens two more. -/
theorem ofJson?_toJson (q : Query) : ∀ {levels : Nat}, 2 * q.depth + 2 ≤ levels → Placeable q →
    ofJson? lib levels (q.toJson lib) = some (q.mapValues lib.reread) := by
  induction q using nested_induction with
  | node kind children token value ih =>
    intro levels enough whole
    rw [depth_node] at enough
    obtain ⟨below, rfl⟩ : ∃ below, levels = below + 4 := ⟨levels - 4, by omega⟩
    have fields : lib.fields? ["kind", "children", "token", "value"]
        (toJson lib (.node kind children token value)) =
          some [some (lib.unitVariant kind.jsonName), some (lib.row (children.map (toJson lib))),
            some (tokenToJson lib token), some (numberToJson lib value)] := by
      rw [toJson_node]
      exact conforms.fields?_record rfl (by decide)
    have named : (plainVariant? lib (below + 3) (lib.unitVariant kind.jsonName)).bind
        Kind.ofJsonName? = some kind := by
      rw [plainVariant?, conforms.variant?_unitVariant]
      exact Kind.ofJsonName?_jsonName kind
    have listed : lib.entries? (lib.row (children.map (toJson lib))) =
        some (children.map (toJson lib)) := by
      rw [conforms.row_eq, conforms.entries?_array]
    have inner : (children.map (toJson lib)).mapM (ofJson? lib (below + 2)) =
        some (children.map (mapValues lib.reread)) := by
      rw [List.mapM_map]
      refine Json.mapM_eq_map fun child member => ih child member ?_ (whole.child member)
      have shallow := depth_le_depthOfAll member
      omega
    have located := readToken?_tokenToJson conforms
      (whole _ (mem_nodes_self (.node kind children token value))) below
    have number := optional?_numberToJson conforms value
    simp only [Query.token] at located
    simp [ofJson?, fields, named, listed, inner, located, number, mapValues_node]

theorem proper_toJson_span (s : Span) : Json.Proper 2 (s.toJson lib) := by
  have position (p : Position) : Json.Proper 1 (p.toJson lib) := by
    apply conforms.proper_record
    simp [conforms.proper_nat]
  apply conforms.proper_record
  simp [position]

theorem proper_toJson_token (t : Token) : Json.Proper 1 (t.toJson lib) := by
  cases t with
  | comparison op => exact conforms.proper_newtypeVariant _ (conforms.proper_unitVariant _)
  | relation text | word text | connective text | number text | comment text =>
    exact conforms.proper_newtypeVariant _ (conforms.proper_string text)
  | _ => exact conforms.proper_unitVariant _

theorem proper_tokenToJson (token : Option (Located Token)) :
    Json.Proper 3 (tokenToJson lib token) := by
  cases token with
  | none => exact .null
  | some t =>
    have value := (proper_toJson_token conforms t.value).mono (by decide : 1 ≤ 2)
    apply conforms.proper_record
    simp [value, proper_toJson_span conforms]

theorem proper_numberToJson {levels : Nat} (value : Option Float) :
    Json.Proper levels (numberToJson lib value) := by
  cases value with
  | none => exact .null
  | some x => exact conforms.proper_float x

/-- The levels of a document are those that are needed to read it as a tree. -/
theorem proper_toJson (q : Query) : ∀ {levels : Nat}, 2 * q.depth + 2 ≤ levels →
    Json.Proper levels (q.toJson lib) := by
  induction q using nested_induction with
  | node kind children token value ih =>
    intro levels enough
    rw [depth_node] at enough
    obtain ⟨below, rfl⟩ : ∃ below, levels = below + 4 := ⟨levels - 4, by omega⟩
    have inner : Json.Proper (below + 3) (lib.row (children.map (toJson lib))) := by
      refine conforms.proper_row fun entry member => ?_
      obtain ⟨child, there, rfl⟩ := List.mem_map.mp member
      have shallow := depth_le_depthOfAll there
      exact ih child there (by omega)
    have located := (proper_tokenToJson conforms token).mono (Nat.le_add_left 3 below)
    rw [toJson_node]
    apply conforms.proper_record
    simp [conforms.proper_unitVariant, inner, located, proper_numberToJson conforms]

variable {q : Query} (shallow : q.depth ≤ 62)

include shallow

theorem proper_of_shallow : Json.Proper 127 (q.toJson lib) :=
  proper_toJson conforms q (by omega)

variable (whole : Placeable q)

include whole

/-- Any text of a tree is read, however it is laid out. -/
theorem readText?_of_writes {text : List Char} (writes : Json.Writes (q.toJson lib) text) :
    readText? lib (String.ofList text) = some (q.mapValues lib.reread) := by
  have deep := conforms.deep
  have found := conforms.read?_writes (proper_of_shallow conforms shallow) writes
  rw [readText?, String.toList_ofList, found, Option.bind_some]
  exact ofJson?_toJson conforms q (by omega) whole

theorem readText?_render :
    readText? lib (lib.render (q.toJson lib)) = some (q.mapValues lib.reread) :=
  readText?_of_writes conforms shallow whole
    (conforms.writes_compact (proper_of_shallow conforms shallow))

theorem readText?_renderPretty :
    readText? lib (lib.renderPretty (q.toJson lib)) = some (q.mapValues lib.reread) :=
  readText?_of_writes conforms shallow whole
    (conforms.writes_pretty (proper_of_shallow conforms shallow))

end Trees

/-- The number, if it is one that JSON can write. -/
def keepFinite (x : Float) : Option Float := if x.isFinite then some x else none

/-- What the library writes for a number it reads as that number, if it is finite. -/
def ReadsBack (lib : Json.Library) (x : Float) : Prop :=
  x.isFinite = true → lib.float? (lib.float x) = some x

instance (x : Float) : Decidable (ReadsBack lib x) :=
  inferInstanceAs (Decidable (x.isFinite = true → lib.float? (lib.float x) = some x))

theorem ReadsBack.reread {x : Float} (back : ReadsBack lib x) : lib.reread x = keepFinite x := by
  rw [Json.Library.reread, keepFinite]
  cases finite : x.isFinite with
  | false => rfl
  | true =>
    rw [back finite]

theorem mapValues_congr {change other : Float → Option Float} {q : Query}
    (same : ∀ n ∈ q.nodes, ∀ x ∈ n.value, change x = other x) :
    q.mapValues change = q.mapValues other := by
  induction q using nested_induction with
  | node kind children token value ih =>
    have root : value.bind change = value.bind other := by
      cases value with
      | none => rfl
      | some x => exact same _ (mem_nodes_self _) x rfl
    have below : children.map (mapValues change) = children.map (mapValues other) :=
      List.map_congr_left fun child member =>
        ih child member fun n inside => same n (mem_nodes_of_child member inside)
    rw [mapValues_node, mapValues_node, root, below]

/-- Either text of a tree, well-formed or not, gives back the tree without the numbers that are not
finite, if the library reads the finite numbers of the tree as it writes them. -/
theorem readText?_toJson (conforms : lib.Conforms) (q : Query) (shallow : q.depth ≤ 62)
    (places : ∀ n ∈ q.nodes, ∀ t ∈ n.token, t.span.Fits)
    (numbers : ∀ n ∈ q.nodes, ∀ x ∈ n.value, ReadsBack lib x) :
    readText? lib (lib.render (q.toJson lib)) = some (q.mapValues keepFinite) ∧
      readText? lib (lib.renderPretty (q.toJson lib)) = some (q.mapValues keepFinite) := by
  have same := mapValues_congr fun n inside x has => (numbers n inside x has).reread
  exact ⟨same ▸ readText?_render conforms shallow places,
    same ▸ readText?_renderPretty conforms shallow places⟩

/-- Tokens of the wrong kinds, one with characters that are escaped, and numbers in two nodes, of
which one is no value and the other holds what is no number. -/
def untidy : Query :=
  .node .conjunction
    [.node .binding [] (some ⟨.comment "\"a\\b\"\n\x07é", .origin⟩) (some 2.5),
      .node .value [.node .filter [] none none]
        (some ⟨.comparison .notEqual, ⟨⟨7, 1, 8⟩, ⟨2, 4294967295, 3⟩⟩⟩) (some Decimal.notANumber)]
    none none

theorem untidy_reads_back :
    readText? Json.reference (Json.reference.render (untidy.toJson Json.reference)) =
        some (untidy.mapValues keepFinite) ∧
      readText? Json.reference (Json.reference.renderPretty (untidy.toJson Json.reference)) =
        some (untidy.mapValues keepFinite) :=
  readText?_toJson Json.reference_conforms untidy (by decide) (by decide +kernel)
    (by decide +kernel)

end Query

end EventQuery
