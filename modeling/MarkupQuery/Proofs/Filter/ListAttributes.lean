import MarkupQuery.Proofs.Filter.Conditions
import MarkupQuery.Proofs.Tree.Growth

/-!
# List attributes

What a search asks of an attribute that holds a list of words, said without queries and without the
spaces that they are built with.
-/

namespace MarkupQuery.Filter

open XPath

/-- The parts of a text between spaces, tabs, carriage returns and line feeds, without the empty
ones. -/
def tokens (s : String) : List (List Char) :=
  (s.toList.splitOnP Text.isBlank).filter (· ≠ [])

/-- The tokens that are wanted stand side by side among those that are there.  Where none are
wanted, there have to be none. -/
def ContainsTokens (wanted actual : String) : Prop :=
  (tokens wanted ≠ [] ∧ tokens wanted <:+: tokens actual) ∨
    (tokens wanted = [] ∧ tokens actual = [])

instance (wanted actual : String) : Decidable (ContainsTokens wanted actual) :=
  inferInstanceAs (Decidable (_ ∨ _))

theorem accepts_iff_containsTokens {config : Config} {name : String}
    (hlist : config.isListAttribute name = true) (wanted actual : String) :
    Accepts config name wanted actual ↔ ContainsTokens wanted actual := by
  rw [Accepts, if_pos hlist, Text.words_eq_filter_splitOnP, Text.words_eq_filter_splitOnP]
  rfl

/-- The condition that is made for a list attribute is read as an expression with a truth value, at
every node of every tree: it is true where the node has the attribute, with a value that contains
the tokens of the text that is asked for. -/
theorem listCondition_iff {config : Config} {name : String}
    (hlist : config.isListAttribute name = true) (wanted : String) :
    ∃ e, parse (valueCondition config name wanted) = .ok e ∧
      ∀ t : Tree, t.Assembled → ∀ id < t.size, ∀ position size,
        ∃ b, e.eval t ⟨.tree id, position, size⟩ = .ok (.boolean b) ∧
          (b = true ↔ ∃ actual, (name, actual) ∈ t.attributes id ∧
            ContainsTokens wanted actual) := by
  obtain ⟨e, hspells, hkind, hholds⟩ := exists_listCondition hlist wanted
  have hparse := parse_of_spells (hspells.loosen.map fun _ => .expr)
  refine ⟨e, hparse, fun t ht id hid position size => ?_⟩
  obtain ⟨holds, hmeans, htree⟩ := hholds t ht
  obtain ⟨value, heval, -, htrue⟩ := hmeans ⟨.tree id, position, size⟩ hid
  obtain ⟨b, rfl⟩ : ∃ b, value = .boolean b := by
    have htruth := (Expr.kind_of_eval heval).trans hkind
    rcases value with nodes | b | x | s
    case atom.boolean => exact ⟨b, rfl⟩
    all_goals cases htruth
  refine ⟨b, heval, ?_⟩
  simp only [← accepts_iff_containsTokens hlist]
  exact htrue.trans (htree id)

/-- Two words of three are found in a class, whatever blanks stand between them. -/
theorem listCondition_iff_class :
    ({} : Config).isListAttribute "class" = true ∧
    ∃ e, parse (valueCondition {} "class" "b \t c") = .ok e ∧
      e.eval ((Tree.empty.createElement "p").2.setAttribute Tree.empty.size "class" "a b\nc")
        (.alone (.tree Tree.empty.size)) = .ok (.boolean true) := by
  have hlist : ({} : Config).isListAttribute "class" = true := by decide
  have helement := Tree.Built.empty.createElement "p"
  have hcontent := Tree.content_createElement .empty "p"
  have hattributes := Tree.attributes_setAttribute_self helement hcontent "class" "a b\nc"
  have hnone : (Tree.empty.createElement "p").2.attributes Tree.empty.size = [] := by
    rw [Tree.attributes, Tree.attributeList_of_content hcontent, List.map_nil]
  rw [hnone] at hattributes
  have hsize := Tree.lt_size_of_content
    (Tree.content_setAttribute_self hcontent "class" "a b\nc")
  obtain ⟨e, hparse, heval⟩ := listCondition_iff hlist "b \t c"
  obtain ⟨b, hb, htrue⟩ := heval _ (helement.setAttribute _ "class" "a b\nc").assembled _ hsize 1 1
  have hfound : b = true := htrue.2 ⟨"a b\nc", by simp [hattributes, assignEntry], by decide⟩
  exact ⟨hlist, e, hparse, hfound ▸ hb⟩

end MarkupQuery.Filter
