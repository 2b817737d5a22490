import QueryStats.Clause.OfQuery
import QueryStats.Proofs.Comments

/-!
# What stripping leaves

Stripping leaves no sign of a comment outside quoted runs: of two neighbours that show there, no two
open a comment (`commentFree_iff`).  So a second stripping finds nothing to do, and a query and what
stripping leaves of it have one clause (`ofQuery_stripComments`).
-/

namespace QueryStats.Query

/-- A text is free of comments when no two neighbours that show in it open one. -/
theorem commentFree_iff {t : List Char} :
    CommentFree t ↔ ∀ a b, [a, b] <:+: faces (mask t) → opensComment a b = false := by
  rw [CommentFree, List.isChain_iff_forall_rel_of_append_cons_cons]
  constructor
  · rintro h a b ⟨u, v, huv⟩
    have hcut : faces (mask t) = u ++ a :: b :: v := by
      rw [← huv, List.append_assoc]
      rfl
    exact h hcut
  · intro h a b u v huv
    refine h a b ⟨u, v, ?_⟩
    rw [huv, List.append_assoc]
    rfl

theorem commentFree_stripComments (text : String) : CommentFree (stripComments text).toList := by
  rw [stripComments, String.toList_ofList]
  exact commentFree_stripFrom text.toList

/-- Two characters that open a comment are not side by side in what stripping leaves, quoted text
blanked out. -/
theorem not_infix_blankQuoted {a b : Char} (h : opensComment a b = true) (text : String) :
    ¬[a, b] <:+: (blankQuoted (stripComments text)).toList := by
  intro hab
  rw [blankQuoted, String.toList_ofList] at hab
  have hf := commentFree_iff.1 (commentFree_stripComments text) a b hab
  rw [h] at hf
  cases hf

/-- A second stripping changes nothing. -/
theorem stripComments_stripComments (text : String) :
    stripComments (stripComments text) = stripComments text := by
  rw [stripComments, stripFrom_of_commentFree (commentFree_stripComments text),
    String.ofList_toList]

end QueryStats.Query

namespace QueryStats

open Query

/-- Comments do not reach the scan: stripping twice is stripping once, neither sign that opens a
comment shows in what is scanned, and a query can be stripped before it is read. -/
theorem ofQuery_stripComments (text : String) :
    stripComments (stripComments text) = stripComments text ∧
      (¬"--".toList <:+: (blankQuoted (stripComments text)).toList ∧
        ¬"/*".toList <:+: (blankQuoted (stripComments text)).toList) ∧
      Clause.ofQuery (stripComments text) = Clause.ofQuery text := by
  refine ⟨stripComments_stripComments text, ⟨?_, ?_⟩, ?_⟩
  · exact not_infix_blankQuoted (by decide) text
  · exact not_infix_blankQuoted (by decide) text
  · have hs := stripFrom_of_commentFree (commentFree_stripComments text)
    rw [Clause.ofQuery, hs, stripComments, String.toList_ofList]
    rfl

end QueryStats
