import GoOutline.Analysis
import GoOutline.Proofs.Syntax.Faults
import GoOutline.Proofs.Text.Utf8

/-!
# Which sources are accepted

A source is refused for the first of three reasons: its bytes are no text, its tree has a fault, or
its file has no package clause. What is said about a fault is said about the first one in reading
order.

## Main results

* `accept_of_not_text`: bytes that are no text are refused, whatever the trees of texts are
* `accept_encode`: what becomes of a text, by the first fault of its tree
* `accept_boundary`: each of the reasons, with the condition under which it is given
-/

namespace GoOutline

open GoOutline.Syntax GoOutline.Text

section

variable (treeOf : List Char → Node) (marked : Node → Bool) (path : String)

/-- Bytes that are no text are refused at the first of them that cannot be read. -/
theorem accept_of_not_text {source : List UInt8} (h : ¬ ∃ text, source = Utf8.encode text) :
    accept treeOf marked path source =
      .error (.malformed path (bytePosition source (Utf8.validLength source)).1
        (bytePosition source (Utf8.validLength source)).2 .illegalEncoding) := by
  rw [accept]
  split
  · next text hdecode => exact absurd ⟨text, Utf8.decode_eq_iff.1 hdecode⟩ h
  · rfl

variable {marked}

/-- A text is judged by the first fault of its tree in reading order, and without any by the
children of the root. -/
theorem accept_encode (hmarked : ∀ n, marked n ↔ ∃ m ∈ n.preorder, m.isFault) (text : List Char) :
    accept treeOf marked path (Utf8.encode text) =
      match (treeOf text).preorder.find? Node.isFault with
      | some fault =>
        .error (.malformed path (fault.startRow + 1) (fault.span.start.column + 1)
          (complaintAbout fault))
      | none =>
        if Tree.hasPackageClause (treeOf text) then .ok ⟨path, Utf8.encode text, treeOf text⟩
        else .error (.missingPackage path) := by
  rw [accept, Utf8.decode_encode]
  dsimp only
  rewrite [Tree.firstFault?_eq_find? hmarked]
  rfl

end

/-- What is said about a fault is never that the bytes are no text. -/
theorem complaintAbout_ne_illegalEncoding (fault : Node) :
    complaintAbout fault ≠ .illegalEncoding := by
  unfold complaintAbout
  split
  · nofun
  · dsimp only
    split <;> nofun

theorem hasPackageClause_iff {root : Node} :
    Tree.hasPackageClause root ↔ ∃ n ∈ root.children, n.kind = .packageClause := by
  simp [Tree.hasPackageClause]

section

variable (treeOf : List Char → Node) {marked : Node → Bool} (path : String)

/-- The encoding of a text is never refused for its encoding. -/
theorem accept_encode_ne_illegalEncoding
    (hmarked : ∀ n, marked n ↔ ∃ m ∈ n.preorder, m.isFault) (text : List Char)
    (line column : Nat) :
    accept treeOf marked path (Utf8.encode text) ≠
      .error (.malformed path line column .illegalEncoding) := by
  rw [accept_encode treeOf path hmarked]
  intro h
  split at h
  · injection h with h
    injection h with _ _ _ h
    exact complaintAbout_ne_illegalEncoding _ h
  · split at h <;> cases h

/-- The first fault in reading order is the one that is reported. -/
theorem accept_of_first_fault (hmarked : ∀ n, marked n ↔ ∃ m ∈ n.preorder, m.isFault)
    {text : List Char} {before : List Node} {fault : Node} {after : List Node}
    (htree : (treeOf text).preorder = before ++ fault :: after)
    (hbefore : ∀ n ∈ before, n.isFault = false) (hfault : fault.isFault) :
    accept treeOf marked path (Utf8.encode text) =
      .error (.malformed path (fault.span.start.row + 1) (fault.span.start.column + 1)
        (complaintAbout fault)) := by
  have hfind : (treeOf text).preorder.find? Node.isFault = some fault :=
    List.find?_eq_some_iff_append.2 ⟨hfault, before, after, htree, by simpa using hbefore⟩
  rw [accept_encode treeOf path hmarked, hfind]
  rfl

/-- Without faults it is the package clause that matters. -/
theorem accept_of_no_fault (hmarked : ∀ n, marked n ↔ ∃ m ∈ n.preorder, m.isFault)
    {text : List Char} (htree : ∀ n ∈ (treeOf text).preorder, n.isFault = false) :
    accept treeOf marked path (Utf8.encode text) =
      if Tree.hasPackageClause (treeOf text) then .ok ⟨path, Utf8.encode text, treeOf text⟩
      else .error (.missingPackage path) := by
  have hfind : (treeOf text).preorder.find? Node.isFault = none :=
    List.find?_eq_none.2 (by simpa using htree)
  rw [accept_encode treeOf path hmarked, hfind]

end

/-- **Which sources are accepted.** Let `marked` be the mark of trees with a fault in them.

* A source is refused for its encoding when, and only when, it is not the encoding of a text; no
  tree has a say in that.
* The encoding of a text is refused as malformed when, and only when, some node of its tree is a
  fault, and the place reported is the start of the first such node in reading order.
* Without a fault, it is refused for want of a package clause when, and only when, no child of the
  root is one.
* Otherwise it is accepted, with its path, its bytes and its tree. -/
theorem accept_boundary (treeOf : List Char → Node) (marked : Node → Bool)
    (hmarked : ∀ n, marked n ↔ ∃ m ∈ n.preorder, m.isFault) (path : String)
    (source : List UInt8) :
    ((∃ line column, accept treeOf marked path source =
        .error (.malformed path line column .illegalEncoding)) ↔
      ¬ ∃ text, source = Utf8.encode text) ∧
    ((¬ ∃ text, source = Utf8.encode text) → ∀ treeOf' marked',
      accept treeOf' marked' path source = accept treeOf marked path source) ∧
    ∀ text, source = Utf8.encode text →
      ((∃ line column complaint, accept treeOf marked path source =
          .error (.malformed path line column complaint)) ↔
        ∃ n ∈ (treeOf text).preorder, n.isFault) ∧
      (∀ before fault after, (treeOf text).preorder = before ++ fault :: after →
        (∀ n ∈ before, n.isFault = false) → fault.isFault →
        accept treeOf marked path source =
          .error (.malformed path (fault.span.start.row + 1) (fault.span.start.column + 1)
            (complaintAbout fault))) ∧
      ((∀ n ∈ (treeOf text).preorder, n.isFault = false) →
        (accept treeOf marked path source = .error (.missingPackage path) ↔
          ∀ n ∈ (treeOf text).children, n.kind ≠ .packageClause) ∧
        ((∃ n ∈ (treeOf text).children, n.kind = .packageClause) →
          accept treeOf marked path source = .ok ⟨path, source, treeOf text⟩)) := by
  refine ⟨⟨?_, fun h => ⟨_, _, accept_of_not_text treeOf marked path h⟩⟩, ?_, ?_⟩
  · rintro ⟨line, column, h⟩ ⟨text, rfl⟩
    exact accept_encode_ne_illegalEncoding treeOf path hmarked text line column h
  · intro h treeOf' marked'
    rw [accept_of_not_text treeOf' marked' path h, accept_of_not_text treeOf marked path h]
  · rintro text rfl
    refine ⟨⟨?_, ?_⟩, fun before fault after => accept_of_first_fault treeOf path hmarked, ?_⟩
    · rintro ⟨line, column, complaint, h⟩
      by_contra hnone
      have htree : ∀ n ∈ (treeOf text).preorder, n.isFault = false := by simpa using hnone
      rw [accept_of_no_fault treeOf path hmarked htree] at h
      split at h <;> cases h
    · rintro ⟨n, hn, hfault⟩
      obtain ⟨fault, hfind⟩ := Option.isSome_iff_exists.1 (List.find?_isSome.2 ⟨n, hn, hfault⟩)
      obtain ⟨hfirst, before, after, htree, hbefore⟩ := List.find?_eq_some_iff_append.1 hfind
      exact ⟨_, _, _, accept_of_first_fault treeOf path hmarked htree (by simpa using hbefore)
        hfirst⟩
    · intro htree
      rw [accept_of_no_fault treeOf path hmarked htree]
      refine ⟨?_, fun hclause => if_pos (hasPackageClause_iff.2 hclause)⟩
      by_cases hclause : Tree.hasPackageClause (treeOf text)
      · rw [if_pos hclause]
        obtain ⟨n, hn, hkind⟩ := hasPackageClause_iff.1 hclause
        exact iff_of_false nofun fun h => h n hn hkind
      · rw [if_neg hclause]
        exact iff_of_true rfl fun n hn hkind => hclause (hasPackageClause_iff.2 ⟨n, hn, hkind⟩)

/-- A package clause, then a block without faults, then a call that lacks its closing parenthesis in
front of a stretch that fits nowhere. -/
def brokenCall : Node :=
  let spot (row column : Nat) : Span := ⟨⟨row, column⟩, ⟨row, column + 1⟩⟩
  let clause := Node.mk ⟨.packageClause, none, spot 0 0, "", false⟩ []
  let block := Node.mk ⟨.block, none, spot 1 0, "", false⟩ [.leaf .comment (spot 1 1) "//"]
  let call := Node.mk ⟨.callExpression, none, spot 2 0, "", false⟩ [.missing ")" ⟨2, 4⟩]
  let stray := Node.mk ⟨.error, none, spot 3 0, "", false⟩ [.leaf .error (spot 3 0) "@"]
  .mk ⟨.sourceFile, none, spot 0 0, "", false⟩ [clause, block, call, stray]

theorem accept_boundary_brokenCall :
    (∀ n, Node.hasFault n ↔ ∃ m ∈ n.preorder, m.isFault) ∧
      accept (fun _ => brokenCall) Node.hasFault "a.go" (Utf8.encode ['p']) =
        .error (.malformed "a.go" 3 5 (.missing ")")) := by
  refine ⟨Node.hasFault_iff, ?_⟩
  have h := ((accept_boundary (fun _ => brokenCall) _ Node.hasFault_iff "a.go" _).2.2 ['p'] rfl).2.1
  exact h (brokenCall.preorder.take 5) (.missing ")" ⟨2, 4⟩) (brokenCall.preorder.drop 6) rfl
    (by decide) rfl

end GoOutline
