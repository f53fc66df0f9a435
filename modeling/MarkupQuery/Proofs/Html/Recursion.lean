import MarkupQuery.Proofs.Html.Shown

/-!
# Writing by recursion

What the writer makes of a node with its stack of pending work is what a recursion over the tree
makes of it.  The recursion is given by one step, from the markup of the children of a node to the
markup of the node.  In a tree without cycles one function alone goes by this step, and it is the
writer.
-/

namespace MarkupQuery.Html

open MarkupQuery.Tree

/-- The markup of a node, from the markup that `write` makes of its children. -/
def markupStep (t : Tree) (write : NodeId → String) (x : NodeId) : String :=
  let inside := String.join ((t.children x).map write)
  match (t.get? x).map Node.content with
  | none => ""
  | some .document => inside
  | some (.element name _) =>
    let tag := t.resolve name
    if tag ∈ voidElements then startTag tag (t.attributes x)
    else startTag tag (t.attributes x) ++ (if tag ∈ rawTextElements then rawText t x else inside) ++
      endTag tag
  | some (.text value) => escapeText value
  | some (.comment value) => commentText value
  | some (.doctype name publicId systemId) => doctypeText (t.resolve name) publicId systemId
  | some (.instruction target data) => instructionText (t.resolve target) data

/-- Writing goes by recursion when the markup of every node comes from that of its children. -/
def Recursive (t : Tree) (write : NodeId → String) : Prop := ∀ x, write x = markupStep t write x

/-- The line feed behind a doctype. -/
def lineBehind (t : Tree) (x : NodeId) : String :=
  match (t.get? x).map Node.content with
  | some (.doctype ..) => "\n"
  | _ => ""

/-- A text whose last line is ended, unless it has none. -/
def endLine (text : String) : String :=
  if text = "" ∨ ['\n'] <:+ text.toList then text else text ++ "\n"

variable {t : Tree} {kids : NodeId → List NodeId}

/-! ## The step -/

theorem outerMarkup_of_size_le {x : NodeId} (hx : t.size ≤ x) : outerMarkup t x = "" := by
  have hvisit : Frame.visit t (.node x) = ("", []) := by
    rw [Frame.visit, get?_eq_none_iff.2 hx]
    rfl
  unfold outerMarkup
  cases drainBound t with
  | zero => rfl
  | succ bound => simp [drain, hvisit]

/-- The document is written as its children are, one after another. -/
theorem outerMarkup_document (h : t.Linked kids) {x : NodeId}
    (hx : (t.get? x).map Node.content = some .document) : outerMarkup t x = innerMarkup t x := by
  have hvisit : Frame.visit t (.node x) = ("", (t.children x).map .node) := by
    rw [Frame.visit, hx]
  obtain ⟨visits, hinner⟩ := exists_writes_inner h x
  have hwrites : Writes t (Frame.visit t (.node x)).2 visits (innerMarkup t x) := hvisit ▸ hinner
  rw [outerMarkup_eq_visit h (lt_size_of_content hx) hwrites, hvisit, String.empty_append]

theorem markupStep_element {x : NodeId} {tag : String} (htag : t.tagName? x = some tag)
    (write : NodeId → String) : markupStep t write x =
      if tag ∈ voidElements then startTag tag (t.attributes x)
      else startTag tag (t.attributes x) ++
        (if tag ∈ rawTextElements then rawText t x else String.join ((t.children x).map write)) ++
        endTag tag := by
  obtain ⟨name, attributes, hx, rfl⟩ := content_of_tagName? htag
  rw [markupStep, hx]

theorem recursive_outerMarkup (h : t.Linked kids) : Recursive t (outerMarkup t) := by
  intro x
  cases hx : (t.get? x).map Node.content with
  | none =>
    rw [outerMarkup_of_size_le (get?_eq_none_iff.1 (Option.map_eq_none_iff.1 hx)), markupStep, hx]
  | some content =>
    cases content with
    | document => rw [outerMarkup_document h hx, innerMarkup_eq_join h, markupStep, hx]
    | element name attributes =>
      have htag : t.tagName? x = some (t.resolve name) := content_eq_element hx
      rw [markupStep_element htag, ← innerMarkup_eq_join h]
      split_ifs with hvoid hraw
      · exact outerMarkup_void h htag hvoid
      · rw [outerMarkup_element h htag hvoid, if_pos hraw]
      · rw [outerMarkup_element h htag hvoid, if_neg hraw]
    | text value => rw [outerMarkup_text h hx, markupStep, hx]
    | doctype | comment | instruction =>
      apply outerMarkup_of_visit h (lt_size_of_content hx)
      rw [Frame.visit, markupStep, hx]

/-! ## One function goes by the step -/

theorem markupStep_congr {write write' : NodeId → String} {x : NodeId}
    (h : ∀ c ∈ t.children x, write c = write' c) :
    markupStep t write x = markupStep t write' x := by
  unfold markupStep
  rw [List.map_congr_left h]

/-- Two ways of writing that both go by recursion write all nodes of a forest alike. -/
theorem Recursive.eq_of_preorder {write write' : NodeId → String} (hwrite : Recursive t write)
    (hwrite' : Recursive t write') {xs l : List NodeId} (hl : Preorder t.children xs l) :
    ∀ x ∈ xs, write x = write' x := by
  induction hl with
  | nil => simp
  | @cons x rest _ _ _ _ ihbelow ihafter =>
    have hx : write x = write' x :=
      calc write x
          = markupStep t write x := hwrite x
        _ = markupStep t write' x := markupStep_congr ihbelow
        _ = write' x := (hwrite' x).symm
    exact List.forall_mem_cons.2 ⟨hx, ihafter⟩

theorem Recursive.unique (h : t.Linked kids) {write write' : NodeId → String}
    (hwrite : Recursive t write) (hwrite' : Recursive t write') : write = write' := by
  have hkids : t.children = kids := funext h.children_eq
  funext x
  obtain ⟨l, hl⟩ := h.exists_preorder [x]
  rw [← hkids] at hl
  exact hwrite.eq_of_preorder hwrite' hl x (List.mem_singleton_self x)

theorem recursive_iff (h : t.Linked kids) (write : NodeId → String) :
    Recursive t write ↔ write = outerMarkup t := by
  constructor
  · intro hwrite
    exact hwrite.unique h (recursive_outerMarkup h)
  · rintro rfl
    exact recursive_outerMarkup h

/-! ## Documents -/

theorem endsWith_lineFeed_iff (text : String) :
    text.endsWith "\n" = true ↔ ['\n'] <:+ text.toList := by
  rw [String.endsWith_eq_endsWith_toSlice, String.Slice.endsWith_string_iff]
  simp

theorem documentMarkup_eq (t : Tree) : documentMarkup t = endLine (String.join
    ((t.children root).map fun c => outerMarkup t c ++ lineBehind t c)) := by
  have hline (c : NodeId) :
      (if (t.get? c).any (·.kind == .doctype) then "\n" else "") = lineBehind t c := by
    unfold lineBehind
    cases t.get? c with
    | none => rfl
    | some n =>
      obtain ⟨content⟩ := n
      cases content <;> rfl
  unfold documentMarkup endLine
  simp only [hline, ← endsWith_lineFeed_iff, Bool.or_eq_true, String.isEmpty_iff]

/-- The writer goes by the recursion over the tree, and nothing else does.  Inside a node stands the
markup of its children one after another; in a document a line feed follows each doctype, and the
last line is ended. -/
theorem written_by_recursion (h : t.Linked kids) :
    (∀ write : NodeId → String, Recursive t write ↔ write = outerMarkup t) ∧
      (∀ x, innerMarkup t x = String.join ((t.children x).map (outerMarkup t))) ∧
      documentMarkup t = endLine (String.join
        ((t.children root).map fun c => outerMarkup t c ++ lineBehind t c)) :=
  ⟨recursive_iff h, innerMarkup_eq_join h, documentMarkup_eq t⟩

/-- A paragraph is its text between its tags, and the text is written with a reference. -/
theorem written_by_recursion_paragraph :
    let t := addElement .empty "p" "a<b"
    (∃ kids, t.Linked kids) ∧
      outerMarkup t Tree.empty.size =
        startTag "p" (t.attributes Tree.empty.size) ++ "a&lt;b" ++ endTag "p" ∧
      innerMarkup t Tree.empty.size = "a&lt;b" ∧ documentMarkup t = "" := by
  intro t
  obtain ⟨kids, hlinked⟩ := (built_addElement "p" "a<b" .empty).exists_linked
  obtain ⟨hwriter, hinner, hdocument⟩ := written_by_recursion hlinked
  have hrecursive : Recursive t (outerMarkup t) := (hwriter _).2 rfl
  have hchildren : t.children Tree.empty.size = [Tree.empty.size + 1] :=
    children_addElement "p" "a<b" .empty
  have htext : outerMarkup t (Tree.empty.size + 1) = "a&lt;b" := by
    rw [hrecursive, markupStep, content_addElement_text]
    decide +kernel
  have hinside : String.join ((t.children Tree.empty.size).map (outerMarkup t)) = "a&lt;b" := by
    rw [hchildren, List.map_singleton, htext]
    decide +kernel
  refine ⟨⟨kids, hlinked⟩, ?_, (hinner _).trans hinside, ?_⟩
  · have hvoid : "p" ∉ voidElements := by decide
    have hraw : "p" ∉ rawTextElements := by decide
    rw [hrecursive, markupStep_element (tagName?_addElement "p" "a<b" .empty), if_neg hvoid,
      if_neg hraw, hinside]
  · have hroot : t.children root = [] := by decide +kernel
    rw [hdocument, hroot]
    decide

end MarkupQuery.Html
