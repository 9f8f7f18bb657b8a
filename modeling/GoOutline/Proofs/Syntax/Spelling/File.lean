import GoOutline.Proofs.Syntax.Runs.File
import GoOutline.Syntax.Tree

/-!
# Spelling of trees

Every run spells its names, by induction on how it comes about, and so does every tree of a source.

## Main results

* `Run.allSpelled`: runs
* `Tree.spelled_ofSource`: the tree of any text
-/

namespace GoOutline.Syntax

open Rule

/-! ## Runs -/

section

variable {kind : Kind} {c d : Cursor} {ns : List Node}

theorem allSpelled_take (hk : ¬ kind.isName) {k : Nat} (h : take kind k c = .ok (ns, d)) :
    Node.AllSpelled ns := by
  intro n hn
  rcases mem_take h hn with ⟨hspelled, -⟩ | ⟨span, rfl⟩
  · exact hspelled
  · exact Node.spelled_leaf fun hname => absurd hname hk

theorem allSpelled_enclose (hk : ¬ kind.isName) (h : Node.AllSpelled ns) :
    Node.AllSpelled (Node.enclose kind ns) :=
  h.enclose (Bool.eq_false_iff.2 hk)

theorem allSpelled_word (h : word kind c = .ok (ns, d)) : Node.AllSpelled ns := by
  intro n hn
  rcases mem_word h hn with ⟨hspelled, -⟩ | ⟨span, text, htext, rfl⟩
  · exact hspelled
  · refine Node.spelled_leaf fun _ => ?_
    rwa [String.toList_ofList]

/-- A word of the kind of a name may be in the role of one. -/
theorem canName_word (hk : kind.isName) (h : word kind c = .ok (ns, d)) : Node.CanName ns := by
  intro n hn
  rcases mem_word h hn with ⟨-, hcomment⟩ | ⟨span, text, -, rfl⟩
  · exact .inl hcomment
  · exact .inr (.inl hk)

/-- The dot of an import may be in the role of a name. -/
theorem canName_dot (hdot : (c.upcoming false).head? = some '.')
    (h : take .dot 1 c = .ok (ns, d)) : Node.CanName ns := by
  intro n hn
  rcases mem_take h hn with ⟨-, hcomment⟩ | ⟨span, rfl⟩
  · exact .inl hcomment
  · refine .inr (.inr ?_)
    change String.ofList ((c.upcoming false).take 1) = "."
    rw [List.take_one, hdot]
    rfl

theorem allSpelled_terminator? (h : terminator? c = .ok (some ns, d)) : Node.AllSpelled ns := by
  intro n hn
  obtain ⟨span, text, rfl | ⟨spelling, rfl⟩⟩ := terminator?_leaf h n hn
  · exact Node.spelled_leaf nofun
  · exact Node.spelled_leaf nofun

/-- **Runs** spell their names. -/
theorem Run.allSpelled {m : Setting} (h : Run m c ns d) : Node.AllSpelled ns := by
  induction h with
  | nil => exact Node.allSpelled_nil
  | append _ _ ihns ihms => exact Node.allSpelled_append.2 ⟨ihns, ihms⟩
  | leaf hk h => exact allSpelled_take (Kind.of_isFree hk).2.1 h
  | word _ h => exact allSpelled_word h
  | name hk h => exact (allSpelled_word h).labelled fun _ => canName_word hk h
  | dot hdot h => exact (allSpelled_take (by decide) h).labelled fun _ => canName_dot hdot h
  | labelled hr _ _ ih => exact ih.labelled fun hname => absurd hname hr
  | enclose hk _ _ _ ih => exact allSpelled_enclose (Kind.isPlain_iff.1 hk).2.1 ih
  | declare hk _ _ _ ih => exact allSpelled_enclose (Kind.of_isDeclaration hk).1 ih
  | header hk _ ih =>
    exact allSpelled_enclose (Kind.isPlain_iff.1 (isPlain_of_mem_headerKinds hk)).2.1 ih
  | semicolon h => exact allSpelled_take (by decide) h
  | items _ ih => exact ih
  | placed _ ih => exact ih
  | terminated _ _ hlast ih => exact Node.allSpelled_append.2 ⟨ih, allSpelled_terminator? hlast⟩

theorem IsFile.allSpelled (h : IsFile c ns) : Node.AllSpelled ns := by
  obtain ⟨items, d, rfl, hitems⟩ := h
  refine Node.allSpelled_append.2 ⟨hitems.allSpelled, fun n hn => ?_⟩
  exact (trivia_comments false d n hn).1

end

namespace Tree

/-- What is wrong in a tree is no name. -/
theorem spelled_faultOf (failure : Failure) : (faultOf failure).Spelled := by
  unfold faultOf
  split
  · exact .mk ⟨nofun, nofun⟩ fun _ hn => absurd hn List.not_mem_nil
  · exact Node.spelled_leaf nofun

/-- **The names of every tree** are spelled as such. -/
theorem spelled_ofSource (source : List Char) : (ofSource source).Spelled := by
  refine Node.spelled_mk rfl ?_
  split
  · next items next h =>
    split
    · exact Node.allSpelled_cons.2 ⟨Node.spelled_leaf nofun, Node.allSpelled_nil⟩
    · exact (ensures_fileRule _ h).allSpelled
  · exact Node.allSpelled_cons.2 ⟨spelled_faultOf _, Node.allSpelled_nil⟩

end Tree

end GoOutline.Syntax
