import Mathlib.Tactic.SplitIfs
import MarkupQuery.Html.Serializer
import MarkupQuery.Proofs.Tree.Names
import MarkupQuery.Proofs.Tree.Ranks

/-!
# Inside and outside

The markup of an element is its start tag, what is written inside, and its end tag.  Inside stands
the markup of the children one after another, except in a raw-text element, where the texts stand
as they are and all else is left out.  The markup of the inside alone makes no such exception.
-/

namespace MarkupQuery.Html

open MarkupQuery.Tree

variable {t : Tree} {kids : NodeId → List NodeId}

/-! ## Pending work -/

/-- Pending work is done after a number of visits and has written a text. -/
inductive Writes (t : Tree) : List Frame → Nat → String → Prop where
  | done : Writes t [] 0 ""
  | visit (frame : Frame) {stack : List Frame} {visits : Nat} {text : String}
      (h : Writes t ((frame.visit t).2 ++ stack) visits text) :
      Writes t (frame :: stack) (visits + 1) ((frame.visit t).1 ++ text)

namespace Writes

variable {frames frames' : List Frame} {visits visits' : Nat} {text text' : String}

theorem drain_eq (h : Writes t frames visits text) {bound : Nat} (hbound : visits ≤ bound)
    (out : String) : drain t bound frames out = out ++ text := by
  induction h generalizing bound out with
  | done => cases bound <;> simp [drain]
  | visit frame _ ih =>
    obtain ⟨bound, rfl⟩ := Nat.exists_eq_succ_of_ne_zero (n := bound) (by omega)
    rw [drain]
    exact (ih (Nat.le_of_succ_le_succ hbound) _).trans (String.append_assoc ..)

theorem unique (h : Writes t frames visits text) (h' : Writes t frames visits' text') :
    text = text' := by
  induction h generalizing visits' text' with
  | done =>
    cases h'
    rfl
  | visit frame _ ih =>
    cases h' with
    | visit _ h' => rw [ih h']

theorem append (h : Writes t frames visits text) (h' : Writes t frames' visits' text') :
    Writes t (frames ++ frames') (visits + visits') (text ++ text') := by
  induction h with
  | done => simpa using h'
  | visit frame _ ih =>
    rw [List.append_assoc] at ih
    rw [Nat.add_right_comm, String.append_assoc]
    exact .visit frame ih

theorem close (tag : String) : Writes t [.close tag] 1 (endTag tag) := by
  have h : Writes t [.close tag] 1 (endTag tag ++ "") := .visit (.close tag) .done
  rwa [String.append_empty] at h

end Writes

/-- A node puts at most its children on the stack and an end tag behind them. -/
theorem exists_frames (x : NodeId) : ∃ opened closed,
    (Frame.visit t (.node x)).2 = opened ++ closed ∧
      (opened = [] ∨ opened = (t.children x).map .node) ∧
      (closed = [] ∨ ∃ tag, closed = [.close tag]) := by
  rw [Frame.visit]
  cases (t.get? x).map Node.content with
  | none => exact ⟨[], [], rfl, .inl rfl, .inl rfl⟩
  | some content =>
    cases content with
    | document => exact ⟨_, [], (List.append_nil _).symm, .inr rfl, .inl rfl⟩
    | element tag attributes =>
      dsimp only
      split_ifs
      · exact ⟨[], [], rfl, .inl rfl, .inl rfl⟩
      · exact ⟨[], _, rfl, .inl rfl, .inr ⟨_, rfl⟩⟩
      · exact ⟨_, _, rfl, .inr rfl, .inr ⟨_, rfl⟩⟩
    | doctype | text | comment | instruction => exact ⟨[], [], rfl, .inl rfl, .inl rfl⟩

theorem exists_writes_node {x : NodeId} {bound : Nat}
    (h : ∃ visits text, Writes t ((t.children x).map .node) visits text ∧ visits ≤ bound) :
    ∃ visits text, Writes t [.node x] visits text ∧ visits ≤ bound + 2 := by
  obtain ⟨opened, closed, hframes, hopened, hclosed⟩ := exists_frames (t := t) x
  have hopened : ∃ visits text, Writes t opened visits text ∧ visits ≤ bound := by
    rcases hopened with rfl | rfl
    · exact ⟨0, "", .done, Nat.zero_le _⟩
    · exact h
  have hclosed : ∃ visits text, Writes t closed visits text ∧ visits ≤ 1 := by
    rcases hclosed with rfl | ⟨tag, rfl⟩
    · exact ⟨0, "", .done, Nat.zero_le _⟩
    · exact ⟨1, endTag tag, .close tag, Nat.le_refl _⟩
  obtain ⟨k, s, hopened, hk⟩ := hopened
  obtain ⟨k', s', hclosed, hk'⟩ := hclosed
  have hwrites : Writes t ((Frame.visit t (.node x)).2 ++ []) (k + k') (s ++ s') := by
    rw [hframes, List.append_nil]
    exact hopened.append hclosed
  exact ⟨k + k' + 1, _, .visit (.node x) hwrites, by omega⟩

theorem exists_writes (h : t.Linked kids) {xs l : List NodeId} (hl : Preorder kids xs l) :
    ∃ visits text, Writes t (xs.map .node) visits text ∧ visits ≤ 2 * l.length := by
  induction hl with
  | nil => exact ⟨0, "", .done, Nat.zero_le _⟩
  | @cons x rest below after _ _ ihbelow ihafter =>
    rw [← h.children_eq] at ihbelow
    obtain ⟨k, s, hnode, hk⟩ := exists_writes_node ihbelow
    obtain ⟨k', s', hrest, hk'⟩ := ihafter
    refine ⟨k + k', s ++ s', hnode.append hrest, ?_⟩
    simp only [List.cons_append, List.length_cons, List.length_append]
    omega

/-! ## What a node writes -/

theorem exists_writes_outer (h : t.Linked kids) {x : NodeId} (hx : x < t.size) :
    ∃ visits, Writes t [.node x] visits (outerMarkup t x) := by
  have hpreorder : Preorder kids [x] (x :: t.descendants x ++ []) :=
    .cons (h.preorder_descendants x) .nil
  obtain ⟨visits, text, hwrites, hvisits⟩ := exists_writes h hpreorder
  have hlength : (x :: t.descendants x).length ≤ t.size := by
    refine length_le_size (List.nodup_cons.2 ⟨?_, h.nodup_descendants x⟩) fun y hy => ?_
    · exact mt h.mem_descendants.1 (h.not_below_self x)
    · rcases List.mem_cons.1 hy with rfl | hy
      · exact hx
      · exact (h.lt_size_of_below (h.mem_descendants.1 hy)).1
  have hbound : visits ≤ drainBound t := by
    rw [List.append_nil] at hvisits
    unfold drainBound
    omega
  have houter : outerMarkup t x = text := (hwrites.drain_eq hbound "").trans String.empty_append
  exact ⟨visits, houter ▸ hwrites⟩

theorem exists_writes_inner (h : t.Linked kids) (x : NodeId) :
    ∃ visits, Writes t ((t.children x).map .node) visits (innerMarkup t x) := by
  obtain ⟨visits, text, hwrites, hvisits⟩ := exists_writes h (h.preorder_descendants x)
  have hlength : (t.descendants x).length ≤ t.size :=
    length_le_size (h.nodup_descendants x) fun y hy =>
      (h.lt_size_of_below (h.mem_descendants.1 hy)).1
  have hbound : visits ≤ drainBound t := by
    unfold drainBound
    omega
  rw [← h.children_eq] at hwrites
  have hinner : innerMarkup t x = text := (hwrites.drain_eq hbound "").trans String.empty_append
  exact ⟨visits, hinner ▸ hwrites⟩

/-- A node writes its own text, and then what it has put on the stack. -/
theorem outerMarkup_eq_visit (h : t.Linked kids) {x : NodeId} (hx : x < t.size) {visits : Nat}
    {text : String} (hwrites : Writes t (Frame.visit t (.node x)).2 visits text) :
    outerMarkup t x = (Frame.visit t (.node x)).1 ++ text := by
  obtain ⟨k, houter⟩ := exists_writes_outer h hx
  rw [← List.append_nil (Frame.visit t (.node x)).2] at hwrites
  exact houter.unique (.visit (.node x) hwrites)

/-- Inside stands the markup of the children one after another. -/
theorem innerMarkup_eq_join (h : t.Linked kids) (x : NodeId) :
    innerMarkup t x = String.join ((t.children x).map (outerMarkup t)) := by
  have hjoin (xs : List NodeId) (hxs : ∀ c ∈ xs, c < t.size) : ∃ visits,
      Writes t (xs.map .node) visits (String.join (xs.map (outerMarkup t))) := by
    induction xs with
    | nil => exact ⟨0, .done⟩
    | cons c xs ih =>
      obtain ⟨k, hrest⟩ := ih fun d hd => hxs d (List.mem_cons_of_mem c hd)
      obtain ⟨k', hfirst⟩ := exists_writes_outer h (hxs c List.mem_cons_self)
      rw [List.map_cons, List.map_cons, String.join_cons]
      exact ⟨k' + k, hfirst.append hrest⟩
  obtain ⟨k, hinner⟩ := exists_writes_inner h x
  obtain ⟨k', hjoin⟩ := hjoin (t.children x) fun c hc => by
    rw [h.children_eq] at hc
    exact (h.lt_size hc).2
  exact hinner.unique hjoin

section Kinds

variable {x : NodeId}

theorem outerMarkup_text (h : t.Linked kids) {value : String}
    (hx : (t.get? x).map Node.content = some (.text value)) :
    outerMarkup t x = escapeText value := by
  have hvisit : Frame.visit t (.node x) = (escapeText value, []) := by rw [Frame.visit, hx]
  have hwrites : Writes t (Frame.visit t (.node x)).2 0 "" := hvisit ▸ .done
  rw [outerMarkup_eq_visit h (lt_size_of_content hx) hwrites, hvisit, String.append_empty]

theorem content_of_tagName? {tag : String} (htag : t.tagName? x = some tag) :
    ∃ name attributes, (t.get? x).map Node.content = some (.element name attributes) ∧
      t.resolve name = tag := by
  obtain ⟨name, hname, hresolve⟩ := Option.map_eq_some_iff.1 htag
  obtain ⟨n, hn, hname⟩ := Option.bind_eq_some_iff.1 hname
  unfold Node.tag? at hname
  split at hname
  · rename_i hcontent
    cases hname
    exact ⟨_, _, by rw [hn, Option.map_some, hcontent], hresolve⟩
  · cases hname

/-- An element that may have content is written with what stands inside between its tags; in a
raw-text element these are its texts as they are. -/
theorem outerMarkup_element (h : t.Linked kids) {tag : String} (htag : t.tagName? x = some tag)
    (hvoid : tag ∉ voidElements) :
    outerMarkup t x = startTag tag (t.attributes x) ++
      (if tag ∈ rawTextElements then rawText t x else innerMarkup t x) ++ endTag tag := by
  obtain ⟨name, attributes, hx, rfl⟩ := content_of_tagName? htag
  have hsize := lt_size_of_content hx
  by_cases hraw : t.resolve name ∈ rawTextElements
  · have hvisit : Frame.visit t (.node x) =
        (startTag (t.resolve name) (t.attributes x) ++ rawText t x, [.close (t.resolve name)]) := by
      rw [Frame.visit, hx]
      simp [hvoid, hraw]
    have hwrites : Writes t (Frame.visit t (.node x)).2 1 (endTag (t.resolve name)) :=
      hvisit ▸ .close _
    rw [outerMarkup_eq_visit h hsize hwrites, hvisit, if_pos hraw]
  · have hvisit : Frame.visit t (.node x) = (startTag (t.resolve name) (t.attributes x),
        (t.children x).map .node ++ [.close (t.resolve name)]) := by
      rw [Frame.visit, hx]
      simp [hvoid, hraw]
    obtain ⟨visits, hinner⟩ := exists_writes_inner h x
    have hwrites : Writes t (Frame.visit t (.node x)).2 (visits + 1)
        (innerMarkup t x ++ endTag (t.resolve name)) := hvisit ▸ hinner.append (.close _)
    rw [outerMarkup_eq_visit h hsize hwrites, hvisit, if_neg hraw, String.append_assoc]

end Kinds

/-! ## Raw text -/

section Lists

variable {α β : Type} {f g : α → List β} {l : List α}

theorem length_flatMap_le (h : ∀ a ∈ l, (f a).length ≤ (g a).length) :
    (l.flatMap f).length ≤ (l.flatMap g).length := by
  induction l with
  | nil => exact Nat.le_refl _
  | cons a l ih =>
    obtain ⟨hfirst, hrest⟩ := List.forall_mem_cons.1 h
    simp only [List.flatMap_cons, List.length_append]
    exact Nat.add_le_add hfirst (ih hrest)

/-- Pieces that are nowhere longer than others give the same list only if they are the same. -/
theorem flatMap_eq_iff (h : ∀ a ∈ l, (f a).length ≤ (g a).length) :
    l.flatMap f = l.flatMap g ↔ ∀ a ∈ l, f a = g a := by
  induction l with
  | nil => simp
  | cons a l ih =>
    obtain ⟨hfirst, hrest⟩ := List.forall_mem_cons.1 h
    rw [List.flatMap_cons, List.flatMap_cons, List.forall_mem_cons, ← ih hrest]
    constructor
    · intro heq
      have hlength := congrArg List.length heq
      have hle := length_flatMap_le hrest
      simp only [List.length_append] at hlength
      exact List.append_inj heq (by omega)
    · rintro ⟨heq, heqs⟩
      rw [heq, heqs]

end Lists

/-- The characters of a text that are written as references. -/
def references : List Char := ['&', '<', '>', '\u00a0']

theorem escapeTextChar_eq_iff {c : Char} : escapeTextChar c = [c] ↔ c ∉ references := by
  unfold escapeTextChar references
  split_ifs <;> simp_all

theorem length_escapeTextChar (c : Char) : 1 ≤ (escapeTextChar c).length := by
  unfold escapeTextChar
  split_ifs <;> simp

theorem toList_escapeText (s : String) : (escapeText s).toList = s.toList.flatMap escapeTextChar :=
  String.toList_ofList

theorem length_le_escapeText (s : String) : s.toList.length ≤ (escapeText s).toList.length := by
  have hle := length_flatMap_le (f := fun c => [c]) (g := escapeTextChar) (l := s.toList)
    fun c _ => length_escapeTextChar c
  simpa [toList_escapeText] using hle

theorem escapeText_eq_iff {s : String} : escapeText s = s ↔ ∀ c ∈ s.toList, c ∉ references := by
  have hself : s.toList.flatMap (fun c => [c]) = s.toList := by simp
  calc escapeText s = s
    _ ↔ s.toList.flatMap (fun c => [c]) = s.toList.flatMap escapeTextChar := by
      rw [hself, ← toList_escapeText, String.toList_inj, eq_comm]
    _ ↔ ∀ c ∈ s.toList, [c] = escapeTextChar c :=
      flatMap_eq_iff fun c _ => length_escapeTextChar c
    _ ↔ ∀ c ∈ s.toList, c ∉ references :=
      forall₂_congr fun c _ => eq_comm.trans escapeTextChar_eq_iff

/-- What a node adds to the text of a raw-text element. -/
def rawPart (t : Tree) (x : NodeId) : String := ((t.get? x).bind Node.text?).getD ""

theorem toList_rawText (x : NodeId) :
    (rawText t x).toList = (t.children x).flatMap fun c => (rawPart t c).toList := by
  rw [rawText, String.toList_join]
  induction t.children x with
  | nil => rfl
  | cons c cs ih =>
    rw [List.flatMap_cons, ← ih, List.filterMap_cons, rawPart]
    cases (t.get? c).bind Node.text? <;> simp

theorem toList_innerMarkup (h : t.Linked kids) (x : NodeId) :
    (innerMarkup t x).toList = (t.children x).flatMap fun c => (outerMarkup t c).toList := by
  rw [innerMarkup_eq_join h, String.toList_join, List.flatMap_map]

/-- A node that is written in a raw-text element as it is elsewhere: a text without references, or
something that is no text and writes nothing. -/
inductive Plain (t : Tree) (x : NodeId) : Prop where
  | text {value : String} (hx : (t.get? x).map Node.content = some (.text value))
      (hplain : ∀ c ∈ value.toList, c ∉ references)
  | silent (hx : (t.get? x).bind Node.text? = none) (hsilent : outerMarkup t x = "")

theorem text?_eq_some_iff {x : NodeId} {value : String} :
    (t.get? x).bind Node.text? = some value ↔
      (t.get? x).map Node.content = some (.text value) := by
  cases hget : t.get? x with
  | none => simp
  | some n => cases hcontent : n.content <;> simp [Node.text?, hcontent]

theorem length_rawPart_le (h : t.Linked kids) (x : NodeId) :
    (rawPart t x).toList.length ≤ (outerMarkup t x).toList.length := by
  rw [rawPart]
  cases hvalue : (t.get? x).bind Node.text? with
  | none => exact Nat.zero_le _
  | some value =>
    rw [outerMarkup_text h (text?_eq_some_iff.1 hvalue)]
    exact length_le_escapeText value

theorem rawPart_eq_iff (h : t.Linked kids) (x : NodeId) :
    rawPart t x = outerMarkup t x ↔ Plain t x := by
  rw [rawPart]
  constructor
  · intro heq
    cases hvalue : (t.get? x).bind Node.text? with
    | none =>
      rw [hvalue] at heq
      exact .silent hvalue heq.symm
    | some value =>
      have hx := text?_eq_some_iff.1 hvalue
      rw [hvalue, outerMarkup_text h hx] at heq
      exact .text hx (escapeText_eq_iff.1 heq.symm)
  · rintro (⟨hx, hplain⟩ | ⟨hx, hsilent⟩)
    · rw [text?_eq_some_iff.2 hx, outerMarkup_text h hx]
      exact (escapeText_eq_iff.2 hplain).symm
    · rw [hx, hsilent]
      rfl

theorem rawText_eq_innerMarkup_iff (h : t.Linked kids) (x : NodeId) :
    rawText t x = innerMarkup t x ↔ ∀ c ∈ t.children x, Plain t c := by
  rw [← String.toList_inj, toList_rawText, toList_innerMarkup h,
    flatMap_eq_iff fun c _ => length_rawPart_le h c]
  refine forall₂_congr fun c _ => ?_
  rw [String.toList_inj, rawPart_eq_iff h]

/-- The markup of an element that may have content is that of its inside between its tags, unless
it is a raw-text element with a child that is not written there as it is elsewhere. -/
theorem outerMarkup_eq_iff (ht : t.Assembled) {x : NodeId} {tag : String}
    (htag : t.tagName? x = some tag) (hvoid : tag ∉ voidElements) :
    outerMarkup t x = startTag tag (t.attributes x) ++ innerMarkup t x ++ endTag tag ↔
      (tag ∈ rawTextElements → ∀ c ∈ t.children x, Plain t c) := by
  obtain ⟨kids, hkids⟩ := ht.exists_linked
  rw [outerMarkup_element hkids htag hvoid, String.append_left_inj, String.append_right_inj]
  split_ifs with hraw
  · rw [rawText_eq_innerMarkup_iff hkids]
    exact ⟨fun h _ => h, fun h => h hraw⟩
  · exact ⟨fun _ h => absurd h hraw, fun _ => rfl⟩

/-! ## A new element -/

/-- The tree with a new element in it that holds one text. -/
def addElement (t : Tree) (tag text : String) : Tree :=
  ((t.createElement tag).2.createText text).2.appendChild t.size (t.size + 1)

section New

variable (tag text : String)

theorem size_createElement : (t.createElement tag).2.size = t.size + 1 := size_push _ _

theorem built_addElement (ht : t.Built) : (addElement t tag text).Built := by
  have hbuilt := (ht.createElement tag).appendText text t.size
  rwa [size_createElement] at hbuilt

theorem linked_addElement (ht : t.Built) (hkids : t.Linked kids) :
    (addElement t tag text).Linked (Linked.addKid kids t.size (t.size + 1)) := by
  have helement : (t.createElement tag).2.Linked kids := (hkids.intern tag).push _
  have htext : ((t.createElement tag).2.createText text).2.Linked kids := helement.push _
  have hfresh : ((t.createElement tag).2.createText text).2.Fresh (t.size + 1) := by
    have hfresh := helement.fresh_push (ht.createElement tag).size_pos (.text text)
    rwa [size_createElement] at hfresh
  have hsize : ((t.createElement tag).2.createText text).2.size = t.size + 2 := by
    rw [Tree.createText, size_push, size_createElement]
  have helement_lt : t.size < ((t.createElement tag).2.createText text).2.size := by omega
  have htext_lt : t.size + 1 < ((t.createElement tag).2.createText text).2.size := by omega
  have hne : t.size ≠ t.size + 1 := by omega
  exact htext.appendChild helement_lt htext_lt hfresh.parent hne (hfresh.not_below t.size)

theorem children_addElement (ht : t.Built) :
    (addElement t tag text).children t.size = [t.size + 1] := by
  obtain ⟨kids, hkids⟩ := ht.exists_linked
  have hnone : kids t.size = [] := by
    refine List.eq_nil_iff_forall_not_mem.2 fun c hc => ?_
    exact Nat.lt_irrefl _ (hkids.lt_size hc).1
  rw [(linked_addElement tag text ht hkids).children_eq, Linked.addKid, if_pos rfl, hnone]
  rfl

theorem children_addElement_text (ht : t.Built) :
    (addElement t tag text).children (t.size + 1) = [] := by
  obtain ⟨kids, hkids⟩ := ht.exists_linked
  have hne : t.size + 1 ≠ t.size := by omega
  rw [(linked_addElement tag text ht hkids).children_eq, Linked.addKid, if_neg hne]
  refine List.eq_nil_iff_forall_not_mem.2 fun c hc => ?_
  exact Nat.not_succ_lt_self (hkids.lt_size hc).1

theorem content_addElement : ((addElement t tag text).get? t.size).map Node.content =
    some (.element (t.intern tag).1 []) := by
  have hne : t.size ≠ t.size + 1 := by omega
  rw [addElement, map_content_appendChild, Tree.createText, get?_push, size_createElement,
    if_neg hne, Tree.createElement]
  exact congrArg (Option.map Node.content) ((get?_push _ _).trans (if_pos rfl))

theorem content_addElement_text : ((addElement t tag text).get? (t.size + 1)).map Node.content =
    some (.text text) := by
  rw [addElement, map_content_appendChild, Tree.createText, get?_push, size_createElement,
    if_pos rfl]
  rfl

theorem tagName?_addElement (ht : t.Built) :
    (addElement t tag text).tagName? t.size = some tag := by
  have hresolve : (addElement t tag text).resolve (t.intern tag).1 = tag := by
    rw [Tree.resolve, addElement, names_appendChild]
    exact ht.namesValid.table.resolve_intern tag
  obtain ⟨n, hn, hcontent⟩ := Option.map_eq_some_iff.1
    (content_addElement (t := t) tag text)
  rw [Tree.tagName?, hn, Option.bind_some, Node.tag?, hcontent, Option.map_some, hresolve]

end New

/-- A script whose text has no references agrees with its inside. -/
theorem outerMarkup_eq_iff_script :
    outerMarkup (addElement .empty "script" "a") Tree.empty.size =
      startTag "script" ((addElement .empty "script" "a").attributes Tree.empty.size) ++
        innerMarkup (addElement .empty "script" "a") Tree.empty.size ++ endTag "script" := by
  have ht := (built_addElement "script" "a" .empty).assembled
  refine (outerMarkup_eq_iff ht (tagName?_addElement _ _ .empty) (by decide)).2 fun _ c hc => ?_
  rw [children_addElement _ _ .empty, List.mem_singleton] at hc
  subst hc
  have hplain : 'a' ∉ references := by decide
  exact .text (content_addElement_text _ _) (List.forall_mem_singleton.2 hplain)

/-- A less-than sign stands in a script as it is, and is written as a reference inside. -/
theorem outerMarkup_ne_script :
    (addElement .empty "script" "<").tagName? Tree.empty.size = some "script" ∧
    outerMarkup (addElement .empty "script" "<") Tree.empty.size ≠
      startTag "script" ((addElement .empty "script" "<").attributes Tree.empty.size) ++
        innerMarkup (addElement .empty "script" "<") Tree.empty.size ++ endTag "script" := by
  have htag := tagName?_addElement "script" "<" .empty
  refine ⟨htag, fun heq => ?_⟩
  obtain ⟨kids, hkids⟩ := (built_addElement "script" "<" .empty).exists_linked
  have houter := outerMarkup_element hkids htag (by decide)
  rw [if_pos (by decide), heq, String.append_left_inj, String.append_right_inj] at houter
  have hplain := (rawText_eq_innerMarkup_iff hkids _).1 houter.symm (Tree.empty.size + 1) (by
    rw [children_addElement _ _ .empty]
    exact List.mem_singleton_self _)
  cases hplain with
  | text hcontent hplain =>
    rw [content_addElement_text] at hcontent
    cases hcontent
    have hreference : '<' ∈ references := by decide
    exact hplain '<' (List.mem_singleton_self _) hreference
  | silent hnone _ =>
    rw [text?_eq_some_iff.2 (content_addElement_text _ _)] at hnone
    cases hnone

end MarkupQuery.Html
