import LiveExports.Proofs.Graph.Translation
import LiveExports.Proofs.Json.RoundTrip
import LiveExports.Proofs.Path.Relative
import LiveExports.Proofs.Project.Accounting
import LiveExports.Report.Drawing

/-!
# Drawings can be read back

A reader of drawings takes the boxes and the arrows from the text of a drawing.  It knows nothing of
the analysis: a name is what stands between two quotes, whatever characters it is made of.  What it
reads from the drawing of an analysis is the module graph (`Analysis.drawing_shows`).

That a name is read up to its own quote is because a quote within it is escaped.  Two modules have
different names because their identifiers are absolute: a path from the root begins with a full stop
and the identifier of a module outside with a slash.
-/

namespace LiveExports

/-! ## Pictures -/

/-- The box of a module in a drawing. -/
structure Picture.Box where
  name : String
  /-- The first line of the label. -/
  title : String
  dead : Nat
  exports : Nat
  fill : String
deriving DecidableEq, Repr

/-- An arrow between boxes. -/
structure Picture.Link where
  source : String
  target : String
  kind : EdgeKind
deriving DecidableEq, Repr

/-- What a drawing shows. -/
structure Picture where
  boxes : List Picture.Box
  links : List Picture.Link
deriving DecidableEq, Repr

namespace Picture

/-! ## Reading -/

/-- The text up to the next quote or line break, which of the two ends it, and the rest. -/
def quoted? : List Char → Option (List Char × Char × List Char)
  | [] => none
  | '"' :: rest => some ([], '"', rest)
  | '\\' :: 'n' :: rest => some ([], '\n', rest)
  | '\\' :: c :: rest => (quoted? rest).map fun (text, stop, rest) => (c :: text, stop, rest)
  | c :: rest => (quoted? rest).map fun (text, stop, rest) => (c :: text, stop, rest)

/-- A text in quotes. -/
def name? (text : List Char) : Option (String × List Char) := do
  match ← quoted? (← Text.after? ['"'] text) with
  | (name, '"', rest) => some (String.ofList name, rest)
  | _ => none

/-- The first of several lines. -/
def title? (text : List Char) : Option (String × List Char) := do
  match ← quoted? text with
  | (title, '\n', rest) => some (String.ofList title, rest)
  | _ => none

def number? (text : List Char) : Option (Nat × List Char) :=
  (Json.digits? text).map fun (run, rest) => (Nat.ofDigitChars 10 run 0, rest)

def word (text : List Char) : String × List Char :=
  (String.ofList (text.takeWhile Char.isAlpha), text.dropWhile Char.isAlpha)

def box? (text : List Char) : Option (Box × List Char) := do
  let text ← Text.after? "  ".toList text
  let (name, text) ← name? text
  let text ← Text.after? " [label=\"".toList text
  let (title, text) ← title? text
  let (dead, text) ← number? text
  let text ← Text.after? ['/'] text
  let (exports, text) ← number? text
  let text ← Text.after? " dead\", fillcolor=".toList text
  let (fill, text) := word text
  let text ← Text.after? "];\n".toList text
  return (⟨name, title, dead, exports, fill⟩, text)

/-- The kind of an arrow by its style, up to the end of the line. -/
def kind? (text : List Char) : Option (EdgeKind × List Char) :=
  [EdgeKind.imports, .forwards, .runs].findSome? fun kind =>
    (Text.after? (kind.style.toList ++ [';', '\n']) text).map fun text => (kind, text)

def link? (text : List Char) : Option (Link × List Char) := do
  let text ← Text.after? "  ".toList text
  let (source, text) ← name? text
  let text ← Text.after? " -> ".toList text
  let (target, text) ← name? text
  let (kind, text) ← kind? text
  return (⟨source, target, kind⟩, text)

/-- As many items as there are, and the rest. -/
def many {α : Type} (item? : List Char → Option (α × List Char)) (text : List Char) :
    List α × List Char :=
  match item? text with
  | none => ([], text)
  | some (item, rest) =>
    if rest.length < text.length then
      let (items, rest) := many item? rest
      (item :: items, rest)
    else ([], text)
termination_by text.length

/-- The picture that the text of a drawing gives. -/
def read? (text : List Char) : Option Picture := do
  let text ← Text.after? Analysis.drawingHead.toList text
  let (boxes, text) := many box? text
  let text ← Text.after? ['\n'] text
  let (links, text) := many link? text
  if text = "\x7d\n".toList then some ⟨boxes, links⟩ else none

/-! ### Quoted texts -/

theorem quoted?_escaped {c : Char} (hc : c = '\\' ∨ c = '"') (rest : List Char) :
    quoted? ('\\' :: c :: rest) =
      (quoted? rest).map fun (text, stop, rest) => (c :: text, stop, rest) := by
  rcases hc with rfl | rfl
  · rfl
  · rfl

theorem quoted?_plain {c : Char} (hslash : c ≠ '\\') (hquote : c ≠ '"') (rest : List Char) :
    quoted? (c :: rest) =
      (quoted? rest).map fun (text, stop, rest) => (c :: text, stop, rest) := by
  rw [quoted?]
  · exact hquote
  · simp [hslash]
  · simp [hslash]

/-- An escaped text is read as it was before, up to what ends it. -/
theorem quoted?_escapeQuoted_append (text rest : List Char) :
    quoted? (escapeQuoted text ++ rest) =
      (quoted? rest).map fun (more, stop, rest) => (text ++ more, stop, rest) := by
  induction text with
  | nil => simp [escapeQuoted]
  | cons c text ih =>
      have hcons : escapeQuoted (c :: text) ++ rest =
          (if c = '\\' ∨ c = '"' then ['\\', c] else [c]) ++ (escapeQuoted text ++ rest) := by
        simp [escapeQuoted]
      rw [hcons]
      by_cases hc : c = '\\' ∨ c = '"'
      · rw [if_pos hc, List.cons_append, List.cons_append, List.nil_append, quoted?_escaped hc, ih,
          Option.map_map]
        rfl
      · rw [if_neg hc, List.cons_append, List.nil_append,
          quoted?_plain (fun h => hc (.inl h)) (fun h => hc (.inr h)), ih, Option.map_map]
        rfl

/-- No quote within an escaped text ends it. -/
theorem quoted?_escapeQuoted (text rest : List Char) :
    quoted? (escapeQuoted text ++ '"' :: rest) = some (text, '"', rest) := by
  rw [quoted?_escapeQuoted_append]
  simp [quoted?]

theorem name?_escapeQuoted (name : String) (rest : List Char) :
    name? ('"' :: (escapeQuoted name.toList ++ '"' :: rest)) = some (name, rest) := by
  simp [name?, Text.after?, quoted?_escapeQuoted]

theorem title?_escapeQuoted (title : String) (rest : List Char) :
    title? (escapeQuoted title.toList ++ '\\' :: 'n' :: rest) = some (title, rest) := by
  have htitle : quoted? (escapeQuoted title.toList ++ '\\' :: 'n' :: rest) =
      some (title.toList, '\n', rest) := by
    rw [quoted?_escapeQuoted_append]
    simp [quoted?]
  simp [title?, htitle]

/-! ### Words and numbers -/

theorem number?_toDigits (n : Nat) {rest : List Char} (hrest : Json.EndsNumber rest) :
    number? (Nat.toDigits 10 n ++ rest) = some (n, rest) := by
  have hdigits : Json.digits? (Nat.toDigits 10 n ++ rest) = some (Nat.toDigits 10 n, rest) :=
    Json.digits?_append (fun c => Json.isDigit_of_mem_toDigits) Nat.toDigits_ne_nil hrest
  simp [number?, hdigits]

theorem word_colour (colour : Colour) (rest : List Char) :
    word (colour.name.toList ++ ']' :: rest) = (colour.name, ']' :: rest) := by
  cases colour with
  | unreachable => rfl
  | partlyDead => rfl
  | allUsed => rfl

/-! ### Lines -/

theorem kind?_style (kind : EdgeKind) (rest : List Char) :
    kind? (kind.style.toList ++ ';' :: '\n' :: rest) = some (kind, rest) := by
  cases kind with
  | imports => rfl
  | forwards => rfl
  | runs => rfl

/-- Items that are read one by one are read together, up to a text that is none. -/
theorem many_flatMap {ι α : Type} {item? : List Char → Option (α × List Char)} {items : List ι}
    {write : ι → List Char} {shown : ι → α} {rest : List Char}
    (hitem : ∀ item rest, item? (write item ++ rest) = some (shown item, rest))
    (hrest : item? rest = none) :
    many item? (items.flatMap write ++ rest) = (items.map shown, rest) := by
  induction items with
  | nil =>
      rw [List.flatMap_nil, List.nil_append, many, hrest]
      rfl
  | cons item items ih =>
      -- An item without characters would be read from any text.
      have hne : write item ≠ [] := by
        intro hempty
        have hread := hitem item rest
        rw [hempty, List.nil_append, hrest] at hread
        cases hread
      have hshorter : (items.flatMap write ++ rest).length <
          (write item ++ (items.flatMap write ++ rest)).length := by
        have hlength := List.length_pos_iff.mpr hne
        simp only [List.length_append]
        omega
      rw [List.flatMap_cons, List.append_assoc, many, hitem]
      simp only [hshorter, if_true, ih, List.map_cons]

end Picture

namespace Analysis

variable (analysis : Analysis)

/-- The box that is drawn of a module. -/
def boxOf (id : ModuleId) (node : Node) : Picture.Box where
  name := analysis.relative id
  title := analysis.relative id
  dead := analysis.deadIn id
  exports := node.exports.size
  fill := (analysis.colour id).name

/-- The arrow that is drawn between modules. -/
def linkOf (source target : ModuleId) (kind : EdgeKind) : Picture.Link :=
  ⟨analysis.relative source, analysis.relative target, kind⟩

/-- The characters of a module's line. -/
theorem toList_nodeLine (id : ModuleId) (node : Node) (rest : List Char) :
    (analysis.nodeLine id node).toList ++ rest =
      "  ".toList ++ '"' :: (escapeQuoted (analysis.relative id).toList ++ '"' ::
        (" [label=\"".toList ++ (escapeQuoted (analysis.relative id).toList ++ '\\' :: 'n' ::
          (Nat.toDigits 10 (analysis.deadIn id) ++ '/' :: (Nat.toDigits 10 node.exports.size ++
            (" dead\", fillcolor=".toList ++ ((analysis.colour id).name.toList ++
              ("];\n".toList ++ rest)))))))) := by
  simp [nodeLine, toString]

theorem box?_nodeLine (id : ModuleId) (node : Node) (rest : List Char) :
    Picture.box? ((analysis.nodeLine id node).toList ++ rest) =
      some (analysis.boxOf id node, rest) := by
  have hslash : ∀ rest, Json.EndsNumber ('/' :: rest) := fun rest =>
    Json.endsNumber_cons (by decide)
  have hblank : ∀ rest, Json.EndsNumber (" dead\", fillcolor=".toList ++ rest) :=
    fun rest => Json.endsNumber_cons (by decide)
  have hword : Picture.word ((analysis.colour id).name.toList ++ ("];\n".toList ++ rest)) =
      ((analysis.colour id).name, "];\n".toList ++ rest) := Picture.word_colour _ _
  have hmark : ∀ rest, Text.after? ['/'] ('/' :: rest) = some rest := Text.after?_append ['/']
  rw [toList_nodeLine, Picture.box?]
  simp only [Text.after?_append, Option.bind_eq_bind, Option.bind_some, Picture.name?_escapeQuoted,
    Picture.title?_escapeQuoted, Picture.number?_toDigits _ (hslash _), hmark,
    Picture.number?_toDigits _ (hblank _), hword]
  rfl

theorem toList_arrowLine (arrow : Arrow) (rest : List Char) :
    (analysis.arrowLine arrow).toList ++ rest =
      "  ".toList ++ '"' :: (escapeQuoted (analysis.relative arrow.source).toList ++ '"' ::
        (" -> ".toList ++ '"' :: (escapeQuoted (analysis.relative arrow.target).toList ++ '"' ::
          (arrow.kind.style.toList ++ ';' :: '\n' :: rest)))) := by
  simp [arrowLine, quotedName, toString]

theorem link?_arrowLine (arrow : Arrow) (rest : List Char) :
    Picture.link? ((analysis.arrowLine arrow).toList ++ rest) =
      some (analysis.linkOf arrow.source arrow.target arrow.kind, rest) := by
  rw [toList_arrowLine, Picture.link?]
  simp only [Text.after?_append, Option.bind_eq_bind, Option.bind_some, Picture.name?_escapeQuoted,
    Picture.kind?_style]
  rfl

/-- The picture that an analysis is drawn as. -/
def picture : Picture where
  boxes := analysis.graph.nodes.entries.map fun (id, node) => analysis.boxOf id node
  links := analysis.graph.arrows.map fun arrow =>
    analysis.linkOf arrow.source arrow.target arrow.kind

theorem toList_drawing :
    analysis.drawing.toList =
      drawingHead.toList ++
        (analysis.graph.nodes.entries.flatMap
            (fun (id, node) => (analysis.nodeLine id node).toList) ++
          (['\n'] ++
            (analysis.graph.arrows.flatMap (fun arrow => (analysis.arrowLine arrow).toList) ++
              "\x7d\n".toList))) := by
  simp [drawing, List.flatMap_map]

/-- The drawing is read back. -/
theorem read?_drawing : Picture.read? analysis.drawing.toList = some analysis.picture := by
  have hboxes : ∀ rest, Picture.many Picture.box?
      (analysis.graph.nodes.entries.flatMap
          (fun (id, node) => (analysis.nodeLine id node).toList) ++
        (['\n'] ++ rest)) = (analysis.picture.boxes, ['\n'] ++ rest) :=
    fun rest => Picture.many_flatMap (fun entry => analysis.box?_nodeLine entry.1 entry.2) rfl
  have hlinks : Picture.many Picture.link?
      (analysis.graph.arrows.flatMap (fun arrow => (analysis.arrowLine arrow).toList) ++
        "\x7d\n".toList) = (analysis.picture.links, "\x7d\n".toList) :=
    Picture.many_flatMap analysis.link?_arrowLine rfl
  rw [toList_drawing, Picture.read?]
  simp only [Text.after?_append, Option.bind_eq_bind, Option.bind_some, hboxes, hlinks, if_true]

end Analysis

/-! ## Counting -/

/-- The dead exports of all boxes together. -/
def Picture.dead (picture : Picture) : Nat :=
  picture.boxes.foldr (fun box total => box.dead + total) 0

/-- Counted by key, the members of a list are counted once each. -/
theorem foldr_countP_eq_length {α κ : Type} [DecidableEq κ] {key : α → κ} {keys : List κ}
    {list : List α} (hkeys : keys.Nodup) (hlist : ∀ a ∈ list, key a ∈ keys) :
    keys.foldr (fun k total => list.countP (key · == k) + total) 0 = list.length := by
  induction keys generalizing list with
  | nil =>
      rw [List.eq_nil_iff_forall_not_mem.mpr fun a ha => List.not_mem_nil (hlist a ha)]
      rfl
  | cons first keys ih =>
      obtain ⟨hfirst, hkeys⟩ := List.nodup_cons.mp hkeys
      -- The members with another key than the first are counted by the other keys.
      have hothers : ∀ a ∈ list.filter (fun a => !(key a == first)), key a ∈ keys := by
        intro a ha
        obtain ⟨hmem, hne⟩ := List.mem_filter.mp ha
        exact (List.mem_cons.mp (hlist a hmem)).resolve_left (by simpa using hne)
      have hcount : ∀ k ∈ keys, (list.filter (fun a => !(key a == first))).countP (key · == k) =
          list.countP (key · == k) := by
        intro k hk
        rw [List.countP_filter]
        refine List.countP_congr fun a _ => ?_
        have hne : k ≠ first := fun heq => hfirst (heq ▸ hk)
        simp only [Bool.and_eq_true, beq_iff_eq, Bool.not_eq_true', beq_eq_false_iff_ne]
        exact ⟨fun h => h.1, fun h => ⟨h, h ▸ hne⟩⟩
      have hfold : keys.foldr (fun k total => list.countP (key · == k) + total) 0 =
          (list.filter (fun a => !(key a == first))).length := by
        rw [← ih hkeys hothers]
        exact List.foldr_ext _ _ _ fun k hk total => by rw [hcount k hk]
      rw [List.foldr_cons, hfold, ← List.countP_eq_length_filter,
        List.length_eq_countP_add_countP (key · == first)]
      congr 1
      exact List.countP_congr fun a _ => by simp

/-- A module has as many exports in the list of all exports as in its own table. -/
theorem Graph.countP_exports {graph : Graph} {id : ModuleId} {node : Node}
    (hnode : graph.node? id = some node) :
    graph.exports.countP (·.1 == id) = node.exports.size := by
  rw [List.countP_eq_length_filter, Graph.exports, List.filter_flatMap,
    Table.flatMap_entries_of_find? hnode]
  · show ((node.exports.entries.map fun item => (id, item.1, item.2)).filter
      (·.1 == id)).length = node.exports.size
    rw [List.filter_eq_self.mpr, List.length_map]
    · rfl
    · intro item hitem
      obtain ⟨_, -, rfl⟩ := List.mem_map.mp hitem
      exact beq_self_eq_true id
  · intro entry _ hne
    refine List.filter_eq_nil_iff.mpr fun item hitem => ?_
    obtain ⟨_, -, rfl⟩ := List.mem_map.mp hitem
    exact fun h => hne (beq_iff_eq.mp h)

namespace Analysis

/-- A picture shows an analysis. -/
structure ShownBy (analysis : Analysis) (picture : Picture) : Prop where
  /-- There is one box for each module, in order, named by the path from the root. -/
  names : picture.boxes.map Picture.Box.name = analysis.graph.ids.map analysis.relative
  /-- No two boxes have the same name. -/
  distinct : (picture.boxes.map Picture.Box.name).Nodup
  /-- The box of a module says how many of its exports are dead, and its colour whether it is live
  and whether any are. -/
  box : ∀ {id node}, analysis.graph.node? id = some node → ∃ box ∈ picture.boxes,
    box.name = analysis.relative id ∧ box.title = box.name ∧
      box.dead = analysis.dead.countP (·.module == id) ∧ box.exports = node.exports.size ∧
      (box.fill = "lightcoral" ↔ id ∉ analysis.live) ∧
      (box.fill = "khaki" ↔ id ∈ analysis.live ∧ 0 < box.dead) ∧
      (box.fill = "lightgreen" ↔ id ∈ analysis.live ∧ box.dead = 0)
  /-- The boxes count each dead export once. -/
  counted : picture.dead = analysis.dead.length
  /-- No box counts more dead exports than there are exports. -/
  bounded : ∀ box ∈ picture.boxes, box.dead ≤ box.exports
  /-- An arrow is drawn just if there is an edge, and once. -/
  linked : ∀ link, link ∈ picture.links ↔
    ∃ edge ∈ analysis.graph.edges, link = analysis.linkOf edge.source edge.target edge.kind
  once : picture.links.Nodup
  /-- Edges that differ in an end or in kind are drawn as different arrows. -/
  apart : ∀ edge ∈ analysis.graph.edges, ∀ other ∈ analysis.graph.edges,
    analysis.linkOf edge.source edge.target edge.kind =
      analysis.linkOf other.source other.target other.kind → edge.arrow = other.arrow
  /-- Arrows go from box to box. -/
  ends : ∀ link ∈ picture.links, link.source ∈ picture.boxes.map Picture.Box.name ∧
    link.target ∈ picture.boxes.map Picture.Box.name

section Shown

variable {analysis : Analysis}

theorem names_picture :
    analysis.picture.boxes.map Picture.Box.name = analysis.graph.ids.map analysis.relative := by
  simp only [picture, Graph.ids, Table.keys, List.map_map]
  rfl

theorem fill_iff (id : ModuleId) :
    ((analysis.colour id).name = "lightcoral" ↔ id ∉ analysis.live) ∧
      ((analysis.colour id).name = "khaki" ↔ id ∈ analysis.live ∧ 0 < analysis.deadIn id) ∧
      ((analysis.colour id).name = "lightgreen" ↔ id ∈ analysis.live ∧ analysis.deadIn id = 0) := by
  unfold colour
  by_cases hlive : id ∈ analysis.live
  · by_cases hdead : 0 < analysis.deadIn id
    · simp [hlive, hdead, Colour.name, Nat.ne_of_gt hdead]
    · simp [hlive, Colour.name, Nat.eq_zero_of_not_pos hdead]
  · simp [hlive, Colour.name]

theorem linked_picture (link : Picture.Link) :
    link ∈ analysis.picture.links ↔
      ∃ edge ∈ analysis.graph.edges, link = analysis.linkOf edge.source edge.target edge.kind := by
  simp only [picture, Graph.arrows, List.mem_map, List.mem_eraseDups]
  constructor
  · rintro ⟨_, ⟨edge, hedge, rfl⟩, rfl⟩
    exact ⟨edge, hedge, rfl⟩
  · rintro ⟨edge, hedge, rfl⟩
    exact ⟨edge.arrow, ⟨edge, hedge, rfl⟩, rfl⟩

section Absolute

variable (habsolute : ∀ id ∈ analysis.graph.ids, id.isAbsolute = true)

include habsolute

theorem eq_of_relative_eq {id other : ModuleId} (hid : id ∈ analysis.graph.ids)
    (hother : other ∈ analysis.graph.ids) (h : analysis.relative id = analysis.relative other) :
    id = other :=
  ModuleId.eq_of_relativeTo_eq (habsolute id hid) (habsolute other hother) h

theorem distinct_picture : (analysis.picture.boxes.map Picture.Box.name).Nodup := by
  rw [names_picture]
  exact (Table.nodup_keys _).map_on fun id hid other hother h =>
    eq_of_relative_eq habsolute hid hother h

theorem arrow_eq_of_linkOf_eq (hvalid : analysis.graph.Valid) {edge other : Edge}
    (hedge : edge ∈ analysis.graph.edges) (hother : other ∈ analysis.graph.edges)
    (h : analysis.linkOf edge.source edge.target edge.kind =
      analysis.linkOf other.source other.target other.kind) : edge.arrow = other.arrow := by
  obtain ⟨hsource, htarget, hkind⟩ := Picture.Link.mk.inj h
  have hids : ∀ {id}, analysis.graph.contains id = true → id ∈ analysis.graph.ids :=
    Graph.mem_ids_iff.mpr
  rw [Arrow.mk.injEq]
  exact ⟨eq_of_relative_eq habsolute (hids (hvalid.edgeSource edge hedge))
      (hids (hvalid.edgeSource other hother)) hsource,
    eq_of_relative_eq habsolute (hids (hvalid.edgeTarget edge hedge))
      (hids (hvalid.edgeTarget other hother)) htarget, hkind⟩

theorem once_picture (hvalid : analysis.graph.Valid) : analysis.picture.links.Nodup := by
  have harrows : analysis.graph.arrows.Nodup :=
    (pairwise_idxOf_eraseDups _).imp fun hlt heq => absurd (heq ▸ hlt) (Nat.lt_irrefl _)
  refine harrows.map_on fun arrow harrow other hother h => ?_
  obtain ⟨edge, hedge, rfl⟩ := List.mem_map.mp (List.mem_eraseDups.mp harrow)
  obtain ⟨next, hnext, rfl⟩ := List.mem_map.mp (List.mem_eraseDups.mp hother)
  exact arrow_eq_of_linkOf_eq habsolute hvalid hedge hnext h

end Absolute

theorem ends_picture (hvalid : analysis.graph.Valid) {link : Picture.Link}
    (hlink : link ∈ analysis.picture.links) :
    link.source ∈ analysis.picture.boxes.map Picture.Box.name ∧
      link.target ∈ analysis.picture.boxes.map Picture.Box.name := by
  obtain ⟨edge, hedge, rfl⟩ := (linked_picture link).mp hlink
  rw [names_picture]
  exact ⟨List.mem_map_of_mem (Graph.mem_ids_iff.mpr (hvalid.edgeSource edge hedge)),
    List.mem_map_of_mem (Graph.mem_ids_iff.mpr (hvalid.edgeTarget edge hedge))⟩

section Liveness

variable {stage : Stage} (hdead : analysis.dead.Sublist (stage.result analysis.graph).records)
  (hvalid : analysis.graph.Valid)

include hdead hvalid

theorem counted_picture : analysis.picture.dead = analysis.dead.length := by
  have hmodules : ∀ record ∈ analysis.dead, record.module ∈ analysis.graph.ids := by
    intro record hrecord
    obtain ⟨id, key, entry, hentry, rfl⟩ :=
      Stage.mem_records_result_iff.mp (hdead.subset hrecord)
    have howner : (stage.record analysis.graph entry).module = id := hvalid.owner hentry
    rw [howner, Graph.mem_ids_iff]
    exact Graph.contains_of_declares (Graph.declares_iff.mpr ⟨entry, hentry⟩)
  rw [← foldr_countP_eq_length (Table.nodup_keys _) hmodules, Picture.dead, picture, Table.keys,
    List.foldr_map, List.foldr_map]
  rfl

theorem deadIn_le {id : ModuleId} {node : Node} (hnode : analysis.graph.node? id = some node) :
    analysis.deadIn id ≤ node.exports.size :=
  calc analysis.deadIn id
      ≤ (stage.result analysis.graph).records.countP (·.module == id) := hdead.countP_le
    _ = analysis.graph.exports.countP (·.2.2.owner == id) := List.countP_map
    _ = analysis.graph.exports.countP (·.1 == id) := by
        refine List.countP_congr fun item hitem => ?_
        rw [hvalid.owner (Graph.mem_exports_iff.mp hitem)]
    _ = node.exports.size := Graph.countP_exports hnode

theorem shownBy_picture
    (habsolute : ∀ id ∈ analysis.graph.ids, id.isAbsolute = true) :
    analysis.ShownBy analysis.picture where
  names := names_picture
  distinct := distinct_picture habsolute
  box {id node} hnode := by
    refine ⟨analysis.boxOf id node, ?_, rfl, rfl, rfl, rfl, fill_iff id⟩
    exact List.mem_map_of_mem (Table.find?_eq_some_iff.mp hnode)
  counted := counted_picture hdead hvalid
  bounded box hbox := by
    obtain ⟨entry, hentry, rfl⟩ := List.mem_map.mp hbox
    exact deadIn_le hdead hvalid (Table.find?_eq_some_iff.mpr hentry)
  linked := linked_picture
  once := once_picture habsolute hvalid
  apart edge hedge other hother := arrow_eq_of_linkOf_eq habsolute hvalid hedge hother
  ends link := ends_picture hvalid

end Liveness

end Shown

theorem name?_quotedName (analysis : Analysis) (id : ModuleId) (rest : List Char) :
    Picture.name? ((analysis.quotedName id).toList ++ rest) =
      some (analysis.relative id, rest) := by
  have htext : (analysis.quotedName id).toList ++ rest =
      '"' :: (escapeQuoted (analysis.relative id).toList ++ '"' :: rest) := by
    simp [quotedName]
  rw [htext, Picture.name?_escapeQuoted]

/-- The drawing of an analysis can be read back without knowing the analysis.  An escaped text is
read up to the quote that follows it, so that the quoted name of a module gives its path from the
root; and the picture that the whole text gives shows the analysis. -/
theorem drawing_shows (analysis : Analysis) {entries : List ModuleId} {entryExportsUsed : Bool}
    {liveness : Liveness}
    (hliveness : analysis.graph.liveness entries entryExportsUsed = .ok liveness)
    (hdead : analysis.dead.Sublist liveness.records)
    (habsolute : ∀ id ∈ analysis.graph.ids, id.isAbsolute = true) :
    (∀ text rest, Picture.quoted? (escapeQuoted text ++ '"' :: rest) = some (text, '"', rest)) ∧
    (∀ id rest, Picture.name? ((analysis.quotedName id).toList ++ rest) =
      some (analysis.relative id, rest)) ∧
    ∃ picture, Picture.read? analysis.drawing.toList = some picture ∧ analysis.ShownBy picture := by
  obtain ⟨_, hvalidate, -⟩ := exists_of_bind_eq_ok hliveness
  rw [Graph.eq_result_of_liveness hliveness] at hdead
  exact ⟨Picture.quoted?_escapeQuoted, analysis.name?_quotedName, analysis.picture,
    analysis.read?_drawing, shownBy_picture hdead (Graph.validate_eq_ok_iff.mp hvalidate) habsolute⟩

/-- A module that imports two names of another, which has quotes in its name and a third export. -/
def quotedPair : Graph :=
  Graph.ofParts
    [{ id := ⟨"/p/main.js"⟩ },
      { id := ⟨"/p/\"lib\".js"⟩
        exports := Table.ofList [("x", { owner := ⟨"/p/\"lib\".js"⟩, name := "x" }),
          ("y", { owner := ⟨"/p/\"lib\".js"⟩, name := "y" }),
          ("z", { owner := ⟨"/p/\"lib\".js"⟩, name := "z" })] }]
    [{ source := ⟨"/p/main.js"⟩, target := ⟨"/p/\"lib\".js"⟩, name := "x", localName := "x",
        kind := .imports },
      { source := ⟨"/p/main.js"⟩, target := ⟨"/p/\"lib\".js"⟩, name := "y", localName := "y",
        kind := .imports }]

/-- The analysis of the pair from the importing module. -/
def ofQuotedPair : Analysis :=
  let liveness := (quotedPair.finalStage [⟨"/p/main.js"⟩] false).result quotedPair
  { root := "/p"
    entries := [⟨"/p/main.js"⟩]
    records := liveness.records
    dead := liveness.dead
    diagnostics := liveness.diagnostics
    statistics := {}
    graph := quotedPair
    live := liveness.live }

theorem drawing_shows_quotedPair :
    ∃ picture, Picture.read? ofQuotedPair.drawing.toList = some picture ∧
      ofQuotedPair.ShownBy picture ∧
      picture.boxes.map Picture.Box.name = ["./\"lib\".js", "./main.js"] ∧ picture.dead = 1 := by
  have hliveness : quotedPair.liveness [⟨"/p/main.js"⟩] false =
      .ok ((quotedPair.finalStage [⟨"/p/main.js"⟩] false).result quotedPair) := rfl
  obtain ⟨-, -, picture, hread, hshown⟩ :=
    drawing_shows ofQuotedPair hliveness List.filter_sublist (by decide)
  exact ⟨picture, hread, hshown, hshown.names.trans (by decide),
    hshown.counted.trans (by decide +kernel)⟩

end Analysis

end LiveExports
