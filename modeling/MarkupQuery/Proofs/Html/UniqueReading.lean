import MarkupQuery.Proofs.Html.References
import MarkupQuery.Proofs.Html.Shown

/-!
# Markup is read in one way

The markup of a node tells the node: where a tag, a comment, an attribute or a text ends can be seen
from the characters alone, and what begins at some place from the next two.  This takes names
without special characters, no raw-text elements, comments without their own end, and texts that are
not empty and not next to each other.
-/

namespace MarkupQuery.Html

open MarkupQuery.Tree

/-- A small letter, a digit or a hyphen. -/
def isMarkupNameChar (c : Char) : Bool := c.isLower || c.isDigit || c == '-'

/-- A name that is written as it stands. -/
structure IsMarkupName (name : String) : Prop where
  ne_empty : name ≠ ""
  chars : ∀ c ∈ name.toList, isMarkupNameChar c = true

/-- The kind of a node of a markup text. -/
def Node.nodeKind : Node → NodeKind
  | doctype .. => .doctype
  | element .. => .element
  | text _ => .text
  | comment _ => .comment
  | instruction .. => .instruction

/-- Two nodes are not both texts. -/
def Node.Apart (a b : Node) : Prop := ¬ (a.nodeKind = .text ∧ b.nodeKind = .text)

/-- An element, a text or a comment whose markup tells what it is. -/
inductive Node.Legible : Node → Prop where
  | element {tag : String} {attributes : List (String × String)} {children : List Node}
      (htag : IsMarkupName tag) (hraw : tag ∉ rawTextElements)
      (hattributes : ∀ a ∈ attributes, IsMarkupName a.1)
      (hvoid : tag ∈ voidElements → children = [])
      (hchildren : ∀ child ∈ children, child.Legible) (hapart : children.IsChain Node.Apart) :
      Legible (.element tag attributes children)
  | text {value : String} (hvalue : value ≠ "") : Legible (.text value)
  | comment {value : String} (hvalue : ¬ "-->".toList <:+: value.toList) :
      Legible (.comment value)

/-! ## Where things end -/

section Ends

variable {a a' r r' : List Char}

/-- Two texts of certain characters that are followed by none of these end at the same place. -/
theorem append_inj_of_stop {p : Char → Bool} (ha : ∀ c ∈ a, p c = true)
    (ha' : ∀ c ∈ a', p c = true) (hr : r.takeWhile p = []) (hr' : r'.takeWhile p = [])
    (heq : a ++ r = a' ++ r') : a = a' ∧ r = r' := by
  have htake := congrArg (List.takeWhile p) heq
  rw [List.takeWhile_append_of_pos ha, List.takeWhile_append_of_pos ha', hr, hr', List.append_nil,
    List.append_nil] at htake
  subst htake
  exact ⟨rfl, List.append_cancel_left heq⟩

/-- Two texts without the end of a comment that are followed by it end at the same place. -/
theorem append_inj_of_comment (ha : ¬ "-->".toList <:+: a) (ha' : ¬ "-->".toList <:+: a')
    (heq : a ++ ("-->".toList ++ r) = a' ++ ("-->".toList ++ r')) : a = a' ∧ r = r' := by
  have hshorter {a w r r' : List Char} (hw : ¬ "-->".toList <:+: a ++ w)
      (heq : "-->".toList ++ r = w ++ ("-->".toList ++ r')) : w = [] := by
    match w, hw, heq with
    | [], _, _ => rfl
    | [c], _, heq => simp at heq
    | [c, d], _, heq => simp at heq
    | c :: d :: e :: w, hw, heq =>
      simp only [String.reduceToList, List.cons_append, List.nil_append, List.cons.injEq] at heq
      obtain ⟨rfl, rfl, rfl, -⟩ := heq
      exact absurd ⟨a, w, by simp⟩ hw
  rcases List.append_eq_append_iff.1 heq with ⟨w, rfl, hw⟩ | ⟨w, rfl, hw⟩
  · obtain rfl := hshorter ha' hw
    simpa using heq
  · obtain rfl := hshorter ha hw
    simpa using heq

end Ends

/-! ## Start tags -/

/-- An attribute as it stands in a start tag. -/
def attributeChars (a : String × String) : List Char :=
  ' ' :: (a.1.toList ++ '=' :: '"' :: ((escapeAttribute a.2).toList ++ ['"']))

theorem toList_startTag (tag : String) (attributes : List (String × String)) :
    (startTag tag attributes).toList =
      '<' :: (tag.toList ++ (attributes.flatMap attributeChars ++ ['>'])) := by
  have hwritten : (String.join (attributes.map fun a =>
      " " ++ a.1 ++ "=\"" ++ escapeAttribute a.2 ++ "\"")).toList =
        attributes.flatMap attributeChars := by
    rw [String.toList_join, List.flatMap_map]
    congr 1
    funext a
    simp [attributeChars]
  simp [startTag, hwritten]

theorem takeWhile_behind_tag (attributes : List (String × String)) (rest : List Char) :
    (attributes.flatMap attributeChars ++ '>' :: rest).takeWhile isMarkupNameChar = [] := by
  cases attributes with
  | nil => exact List.takeWhile_cons_of_neg (by decide)
  | cons a attributes => exact List.takeWhile_cons_of_neg (by decide)

theorem attributes_inj {attributes attributes' : List (String × String)}
    (h : ∀ a ∈ attributes, IsMarkupName a.1) (h' : ∀ a ∈ attributes', IsMarkupName a.1)
    {rest rest' : List Char}
    (heq : attributes.flatMap attributeChars ++ '>' :: rest =
      attributes'.flatMap attributeChars ++ '>' :: rest') :
    attributes = attributes' ∧ rest = rest' := by
  induction attributes generalizing attributes' with
  | nil =>
    cases attributes' with
    | nil => exact ⟨rfl, (List.cons.inj heq).2⟩
    | cons a' attributes' => simp [attributeChars] at heq
  | cons a attributes ih =>
    cases attributes' with
    | nil => simp [attributeChars] at heq
    | cons a' attributes' =>
      obtain ⟨ha, h⟩ := List.forall_mem_cons.1 h
      obtain ⟨ha', h'⟩ := List.forall_mem_cons.1 h'
      simp only [List.flatMap_cons, attributeChars, List.cons_append, List.append_assoc,
        List.cons.injEq, true_and, List.nil_append] at heq
      have hequals (cs : List Char) : ('=' :: cs).takeWhile isMarkupNameChar = [] :=
        List.takeWhile_cons_of_neg (by decide)
      have hquote (cs : List Char) : ('"' :: cs).takeWhile (· != '"') = [] :=
        List.takeWhile_cons_of_neg (by decide)
      have hvalue (s : String) : ∀ c ∈ (escapeAttribute s).toList, (c != '"') = true := by
        intro c hc
        exact bne_iff_ne.2 fun heq => quote_not_mem_escapeAttribute s (heq ▸ hc)
      obtain ⟨hname, heq⟩ := append_inj_of_stop ha.chars ha'.chars (hequals _) (hequals _) heq
      simp only [List.cons.injEq, true_and] at heq
      obtain ⟨hvalues, heq⟩ :=
        append_inj_of_stop (hvalue a.2) (hvalue a'.2) (hquote _) (hquote _) heq
      obtain ⟨hrest, heq⟩ := ih h h' (List.cons.inj heq).2
      rw [String.toList_inj] at hname hvalues
      have hfirst : a = a' := Prod.ext hname (escapeAttribute_injective hvalues)
      exact ⟨by rw [hfirst, hrest], heq⟩

theorem startTag_inj {tag tag' : String} {attributes attributes' : List (String × String)}
    (htag : IsMarkupName tag) (htag' : IsMarkupName tag')
    (h : ∀ a ∈ attributes, IsMarkupName a.1) (h' : ∀ a ∈ attributes', IsMarkupName a.1)
    {rest rest' : List Char}
    (heq : (startTag tag attributes).toList ++ rest = (startTag tag' attributes').toList ++ rest') :
    tag = tag' ∧ attributes = attributes' ∧ rest = rest' := by
  simp only [toList_startTag, List.cons_append, List.append_assoc, List.nil_append,
    List.cons.injEq, true_and] at heq
  obtain ⟨hname, heq⟩ := append_inj_of_stop htag.chars htag'.chars (takeWhile_behind_tag _ _)
    (takeWhile_behind_tag _ _) heq
  obtain ⟨hattributes, hrest⟩ := attributes_inj h h' heq
  exact ⟨String.toList_inj.1 hname, hattributes, hrest⟩

/-! ## What begins -/

/-- The kind of node that begins at some place.  None does at the end of the text and at an end
tag. -/
def nextKind? : List Char → Option NodeKind
  | [] => none
  | '<' :: '/' :: _ => none
  | '<' :: '!' :: _ => some .comment
  | '<' :: _ => some .element
  | _ :: _ => some .text

theorem nextKind?_of_ne {c : Char} (h : c ≠ '<') (rest : List Char) :
    nextKind? (c :: rest) = some .text := by
  unfold nextKind?
  split <;> simp_all

theorem nextKind?_endTag (tag : String) (rest : List Char) :
    nextKind? ((endTag tag).toList ++ rest) = none := by
  simp [endTag, nextKind?]

theorem nextKind?_startTag {tag : String} (htag : IsMarkupName tag)
    (attributes : List (String × String)) (rest : List Char) :
    nextKind? ((startTag tag attributes).toList ++ rest) = some .element := by
  rw [toList_startTag]
  cases hchars : tag.toList with
  | nil => exact absurd (String.toList_eq_nil_iff.1 hchars) htag.ne_empty
  | cons c cs =>
    have hc : isMarkupNameChar c = true := htag.chars c (by simp [hchars])
    have hslash : c ≠ '/' := by
      rintro rfl
      exact absurd hc (by decide)
    have hbang : c ≠ '!' := by
      rintro rfl
      exact absurd hc (by decide)
    rw [List.cons_append, List.cons_append, nextKind?]
    · exact fun _ heq => hslash (List.cons.inj heq).1
    · exact fun _ heq => hbang (List.cons.inj heq).1

/-- What stands in an element behind its start tag. -/
theorem toList_markup_element {tag : String} (hraw : tag ∉ rawTextElements)
    (attributes : List (String × String)) (children : List Node) :
    (Node.element tag attributes children).markup.toList = (startTag tag attributes).toList ++
      if tag ∈ voidElements then [] else (markupAll children).toList ++ (endTag tag).toList := by
  rw [Node.markup]
  split_ifs <;> simp

theorem nextKind?_markup {node : Node} (h : node.Legible) (rest : List Char) :
    nextKind? (node.markup.toList ++ rest) = some node.nodeKind := by
  cases h with
  | element htag hraw _ _ _ _ =>
    rw [toList_markup_element hraw, List.append_assoc, nextKind?_startTag htag, Node.nodeKind]
  | comment => simp [Node.markup, commentText, nextKind?, Node.nodeKind]
  | @text value hvalue =>
    have hne : (escapeText value).toList ≠ [] := by
      have hle := length_le_escapeText value
      intro hnil
      rw [hnil, List.length_nil, Nat.le_zero, List.length_eq_zero_iff] at hle
      exact hvalue (String.toList_eq_nil_iff.1 hle)
    obtain ⟨c, cs, hcs⟩ := List.exists_cons_of_ne_nil hne
    have hc : c ≠ '<' := by
      rintro rfl
      exact lt_not_mem_escapeText value (by simp [hcs])
    rw [Node.markup, hcs, List.cons_append, nextKind?_of_ne hc, Node.nodeKind]

theorem takeWhile_of_nextKind?_ne {rest : List Char} (h : nextKind? rest ≠ some .text) :
    rest.takeWhile (· != '<') = [] := by
  cases rest with
  | nil => rfl
  | cons c rest =>
    by_cases hc : c = '<'
    · exact List.takeWhile_cons_of_neg (by simp [hc])
    · exact absurd (nextKind?_of_ne hc rest) h

/-! ## Reading -/

/-- A node is found again in a text that starts with its markup.  What follows a text node must not
go on with it. -/
def Node.ReadsBack (node : Node) : Prop :=
  ∀ {node' : Node} {rest rest' : List Char}, node'.Legible →
    (node.nodeKind = .text → nextKind? rest ≠ some .text) →
    (node'.nodeKind = .text → nextKind? rest' ≠ some .text) →
    node.markup.toList ++ rest = node'.markup.toList ++ rest' → node = node' ∧ rest = rest'

theorem toList_markupAll_cons (node : Node) (nodes : List Node) (rest : List Char) :
    (markupAll (node :: nodes)).toList ++ rest =
      node.markup.toList ++ ((markupAll nodes).toList ++ rest) := by
  rw [markupAll, String.toList_append, List.append_assoc]

/-- Behind a node that is apart from its next sister no text goes on. -/
theorem nextKind?_behind {node : Node} {nodes : List Node} {rest : List Char}
    (h : ∀ n ∈ nodes, n.Legible) (hapart : (node :: nodes).IsChain Node.Apart)
    (hrest : nextKind? rest = none) (hkind : node.nodeKind = .text) :
    nextKind? ((markupAll nodes).toList ++ rest) ≠ some .text := by
  cases nodes with
  | nil => simp [markupAll, hrest]
  | cons next nodes =>
    rw [toList_markupAll_cons, nextKind?_markup (h next List.mem_cons_self), ne_eq,
      Option.some.injEq]
    exact fun hnext => (List.isChain_cons_cons.1 hapart).1 ⟨hkind, hnext⟩

theorem markupAll_inj {nodes nodes' : List Node} (hreads : ∀ n ∈ nodes, n.ReadsBack)
    (h : ∀ n ∈ nodes, n.Legible) (h' : ∀ n ∈ nodes', n.Legible)
    (hapart : nodes.IsChain Node.Apart) (hapart' : nodes'.IsChain Node.Apart)
    {rest rest' : List Char} (hrest : nextKind? rest = none) (hrest' : nextKind? rest' = none)
    (heq : (markupAll nodes).toList ++ rest = (markupAll nodes').toList ++ rest') :
    nodes = nodes' ∧ rest = rest' := by
  -- a node begins where there is one, and none begins behind the last
  have hends {n : Node} {ns : List Node} {r r' : List Char} (hn : n.Legible)
      (hr : nextKind? r = none) (heq : r = (markupAll (n :: ns)).toList ++ r') : False := by
    rw [heq, toList_markupAll_cons, nextKind?_markup hn] at hr
    cases hr
  induction nodes generalizing nodes' with
  | nil =>
    cases nodes' with
    | nil => exact ⟨rfl, heq⟩
    | cons node' nodes' => exact (hends (h' node' List.mem_cons_self) hrest heq).elim
  | cons node nodes ih =>
    cases nodes' with
    | nil => exact (hends (h node List.mem_cons_self) hrest' heq.symm).elim
    | cons node' nodes' =>
      obtain ⟨hread, hreads⟩ := List.forall_mem_cons.1 hreads
      obtain ⟨-, hnodes⟩ := List.forall_mem_cons.1 h
      obtain ⟨hnode', hnodes'⟩ := List.forall_mem_cons.1 h'
      rw [toList_markupAll_cons, toList_markupAll_cons] at heq
      obtain ⟨hfirst, hafter⟩ := hread hnode' (nextKind?_behind hnodes hapart hrest)
        (nextKind?_behind hnodes' hapart' hrest') heq
      obtain ⟨hnodes, hends⟩ := ih hreads hnodes hnodes' hapart.of_cons hapart'.of_cons hafter
      exact ⟨by rw [hfirst, hnodes], hends⟩

/-- The first characters of its markup tell the kind of a node. -/
theorem Node.Legible.nodeKind_eq {node node' : Node} (h : node.Legible) (h' : node'.Legible)
    {rest rest' : List Char} (heq : node.markup.toList ++ rest = node'.markup.toList ++ rest') :
    node.nodeKind = node'.nodeKind := by
  have hkind := congrArg nextKind? heq
  rwa [nextKind?_markup h, nextKind?_markup h', Option.some.injEq] at hkind

theorem readsBack_text {value : String} (hvalue : value ≠ "") : (Node.text value).ReadsBack := by
  intro node' rest rest' h' hrest hrest' heq
  have hkind := Node.Legible.nodeKind_eq (.text hvalue) h' heq
  cases h' with
  | element | comment => cases hkind
  | @text value' hvalue' =>
    have hchars (s : String) : ∀ c ∈ (escapeText s).toList, (c != '<') = true := by
      intro c hc
      exact bne_iff_ne.2 fun heq => lt_not_mem_escapeText s (heq ▸ hc)
    rw [Node.markup, Node.markup] at heq
    obtain ⟨htext, hbehind⟩ := append_inj_of_stop (hchars value) (hchars value')
      (takeWhile_of_nextKind?_ne (hrest rfl)) (takeWhile_of_nextKind?_ne (hrest' rfl)) heq
    exact ⟨by rw [escapeText_injective (String.toList_inj.1 htext)], hbehind⟩

theorem readsBack_comment {value : String} (hvalue : ¬ "-->".toList <:+: value.toList) :
    (Node.comment value).ReadsBack := by
  intro node' rest rest' h' _ _ heq
  have hkind := Node.Legible.nodeKind_eq (.comment hvalue) h' heq
  cases h' with
  | element | text => cases hkind
  | @comment value' hvalue' =>
    simp only [Node.markup, commentText, String.toList_append, List.append_assoc] at heq
    obtain ⟨htext, hbehind⟩ := append_inj_of_comment hvalue hvalue' (List.append_cancel_left heq)
    exact ⟨by rw [String.toList_inj.1 htext], hbehind⟩

theorem readsBack_element {tag : String} {attributes : List (String × String)}
    {children : List Node} (h : (Node.element tag attributes children).Legible)
    (hreads : ∀ child ∈ children, child.ReadsBack) :
    (Node.element tag attributes children).ReadsBack := by
  intro node' rest rest' h' _ _ heq
  have hkind := h.nodeKind_eq h' heq
  obtain ⟨htag, hraw, hattributes, hvoid, hchildren, hapart⟩ := h
  cases h' with
  | text | comment => cases hkind
  | @element tag' attributes' children' htag' hraw' hattributes' hvoid' hchildren' hapart' =>
    rw [toList_markup_element hraw, toList_markup_element hraw', List.append_assoc,
      List.append_assoc] at heq
    obtain ⟨rfl, rfl, hinside⟩ := startTag_inj htag htag' hattributes hattributes' heq
    split_ifs at hinside with hempty
    · rw [hvoid hempty, hvoid' hempty]
      exact ⟨rfl, hinside⟩
    · rw [List.append_assoc, List.append_assoc] at hinside
      obtain ⟨rfl, hbehind⟩ := markupAll_inj hreads hchildren hchildren' hapart hapart'
        (nextKind?_endTag tag rest) (nextKind?_endTag tag rest') hinside
      exact ⟨rfl, List.append_cancel_left hbehind⟩

theorem Node.Legible.readsBack {node : Node} (h : node.Legible) : node.ReadsBack := by
  induction h with
  | text hvalue => exact readsBack_text hvalue
  | comment hvalue => exact readsBack_comment hvalue
  | element htag hraw hattributes hvoid hchildren hapart ih =>
    exact readsBack_element (.element htag hraw hattributes hvoid hchildren hapart) ih

/-- Legible nodes with the same markup are the same. -/
theorem Node.Legible.eq_of_markup_eq {node node' : Node} (h : node.Legible) (h' : node'.Legible)
    (heq : node.markup = node'.markup) : node = node' := by
  have hend (kind : NodeKind) : nextKind? [] ≠ some kind := by simp [nextKind?]
  have hread : node = node' ∧ ([] : List Char) = [] :=
    h.readsBack h' (fun _ => hend _) (fun _ => hend _) (by rw [heq])
  exact hread.1

/-- Two nodes of trees are written in the same way just if they show the same: the same kinds, tags,
attributes in order and contents, and the same children in order. -/
theorem outerMarkup_injective {t t' : Tree} (ht : t.Assembled) (ht' : t'.Assembled)
    {x x' : NodeId} {node node' : Node} (hx : t.Shows x node) (hx' : t'.Shows x' node')
    (h : node.Legible) (h' : node'.Legible) :
    outerMarkup t x = outerMarkup t' x' ↔ node = node' := by
  obtain ⟨kids, hkids⟩ := ht.exists_linked
  obtain ⟨kids', hkids'⟩ := ht'.exists_linked
  rw [outerMarkup_of_shows hkids hx, outerMarkup_of_shows hkids' hx']
  exact ⟨h.eq_of_markup_eq h', congrArg Node.markup⟩

/-- A less-than sign and the reference to it are written in different ways. -/
theorem outerMarkup_injective_paragraph :
    outerMarkup (addElement .empty "p" "<") Tree.empty.size ≠
      outerMarkup (addElement .empty "p" "&lt;") Tree.empty.size := by
  have hname : IsMarkupName "p" := by
    refine ⟨by decide, ?_⟩
    simp only [String.reduceToList, List.forall_mem_singleton]
    decide
  have hlegible {text : String} (hne : text ≠ "") : (Node.element "p" [] [.text text]).Legible :=
    .element hname (by decide) (by simp) (fun hvoid => absurd hvoid (by decide))
      (List.forall_mem_singleton.2 (.text hne)) (.singleton _)
  intro heq
  have hnode := (outerMarkup_injective (built_addElement _ _ .empty).assembled
    (built_addElement _ _ .empty).assembled (shows_addElement _ _ .empty)
    (shows_addElement _ _ .empty) (hlegible (by decide)) (hlegible (by decide))).1 heq
  simp at hnode

end MarkupQuery.Html
