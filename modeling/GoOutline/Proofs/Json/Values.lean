import GoOutline.Proofs.Json.Scalars
import Mathlib.Data.List.Sort

/-!
# Reading written values

The text of a value, in either layout, is read back as the value with its members in key order. A
value whose members are in key order already is read back as it is.

## Main definitions

* `Json.sorted`: a value with the members of all its objects in key order
* `Json.IsReadable`: every number in the value can be read back
* `Json.IsOrdered`: every object in the value has its members in key order, each key once

## Main results

* `Json.parse?_render`: the text of a value is read back
* `Json.sorted_of_isOrdered`: a value in order is its own sorted form
* `Json.field?_sorted`: sorting keeps what is found under a key
-/

namespace GoOutline.Json

open Text Reader

/-! ## Members in key order -/

mutual

/-- The value with the members of all its objects in key order. -/
def sorted : Json → Json
  | .array items => .array (sortedAll items)
  | .object members => .object (sortMembers (sortedMembers members))
  | v => v

/-- Some values with their members in key order. -/
def sortedAll : List Json → List Json
  | [] => []
  | v :: rest => sorted v :: sortedAll rest

/-- Some members, each with its value in key order. -/
def sortedMembers : List (String × Json) → List (String × Json)
  | [] => []
  | (key, v) :: rest => (key, sorted v) :: sortedMembers rest

end

theorem sortedAll_eq_map (items : List Json) : sortedAll items = items.map sorted := by
  induction items with
  | nil => rw [sortedAll, List.map_nil]
  | cons v rest ih => rw [sortedAll, ih, List.map_cons]

theorem sortedMembers_eq_map (members : List (String × Json)) :
    sortedMembers members = members.map fun m => (m.1, m.2.sorted) := by
  induction members with
  | nil => rw [sortedMembers, List.map_nil]
  | cons m rest ih => rw [sortedMembers, ih, List.map_cons]

@[simp] theorem sorted_null : sorted .null = .null := rfl

@[simp] theorem sorted_bool (b : Bool) : sorted (.bool b) = .bool b := rfl

@[simp] theorem sorted_number (n : Number) : sorted (.number n) = .number n := rfl

@[simp] theorem sorted_string (s : String) : sorted (.string s) = .string s := rfl

@[simp] theorem sorted_array (items : List Json) :
    sorted (.array items) = .array (items.map sorted) := by
  rw [sorted, sortedAll_eq_map]

theorem sorted_object (members : List (String × Json)) :
    sorted (.object members) =
      .object (sortMembers (members.map fun m => (m.1, m.2.sorted))) := by
  rw [sorted, sortedMembers_eq_map]

@[simp] theorem lookup_cons_of_ne {key k : String} (h : key ≠ k) (v : Json)
    (rest : List (String × Json)) : ((k, v) :: rest).lookup key = rest.lookup key := by
  rw [List.lookup_cons, beq_eq_false_iff_ne.2 h]

/-- A member that is put in is found under its key. -/
theorem lookup_insertMember_self (key : String) (v : Json) (members : List (String × Json)) :
    (insertMember key v members).lookup key = some v := by
  fun_induction insertMember key v members with
  | case1 => exact List.lookup_cons_self
  | case2 k v' rest hbefore => exact List.lookup_cons_self
  | case3 => exact List.lookup_cons_self
  | case4 k v' rest hbefore hother ih => rw [lookup_cons_of_ne hother, ih]

/-- A member that is put in hides no other. -/
theorem lookup_insertMember_of_ne {key k : String} (h : key ≠ k) (v : Json)
    (members : List (String × Json)) :
    (insertMember k v members).lookup key = members.lookup key := by
  fun_induction insertMember k v members with
  | case1 => exact lookup_cons_of_ne h v []
  | case2 k' v' rest hbefore => exact lookup_cons_of_ne h v _
  | case3 v' rest hbefore => rw [lookup_cons_of_ne h, lookup_cons_of_ne h]
  | case4 k' v' rest hbefore hother ih => rw [List.lookup_cons, List.lookup_cons, ih]

theorem lookup_foldl_insertMember {members : List (String × Json)}
    (h : (members.map (·.1)).Nodup) (key : String) (start : List (String × Json)) :
    (members.foldl (fun sorted (k, v) => insertMember k v sorted) start).lookup key =
      (members.lookup key).or (start.lookup key) := by
  induction members generalizing start with
  | nil => rfl
  | cons m rest ih =>
    obtain ⟨k, v⟩ := m
    obtain ⟨hk, hrest⟩ := List.nodup_cons.1 h
    rw [List.foldl_cons, ih hrest]
    by_cases hkey : key = k
    · subst hkey
      have hnone : rest.lookup key = none := by
        refine List.lookup_eq_none_iff.2 fun m hm => bne_iff_ne.2 ?_
        rintro rfl
        exact hk (List.mem_map.2 ⟨m, hm, rfl⟩)
      rw [hnone, lookup_insertMember_self, List.lookup_cons_self]
      rfl
    · rw [lookup_insertMember_of_ne hkey, lookup_cons_of_ne hkey]

/-- **Sorting keeps what is found under a key.** -/
theorem field?_sorted {members : List (String × Json)} (h : (members.map (·.1)).Nodup)
    (key : String) : (sorted (.object members)).field? key = (members.lookup key).map sorted := by
  have hkeys : ((members.map fun m => (m.1, m.2.sorted)).map (·.1)).Nodup := by
    rwa [List.map_map]
  rw [sorted_object, field?, sortMembers, lookup_foldl_insertMember hkeys, List.lookup_nil,
    Option.or_none]
  clear h hkeys
  induction members with
  | nil => rfl
  | cons m rest ih =>
    obtain ⟨k, v⟩ := m
    rw [List.map_cons]
    by_cases hkey : key = k
    · rw [hkey, List.lookup_cons_self, List.lookup_cons_self]
      rfl
    · rw [lookup_cons_of_ne hkey, lookup_cons_of_ne hkey, ih]

/-- Every object in the value has its members in key order, each key once. -/
inductive IsOrdered : Json → Prop
  | null : IsOrdered .null
  | bool (b : Bool) : IsOrdered (.bool b)
  | number (n : Number) : IsOrdered (.number n)
  | string (s : String) : IsOrdered (.string s)
  | array {items : List Json} (h : ∀ v ∈ items, IsOrdered v) : IsOrdered (.array items)
  | object {members : List (String × Json)} (hkeys : members.Pairwise fun a b => a.1 < b.1)
      (h : ∀ m ∈ members, IsOrdered m.2) : IsOrdered (.object members)

/-- A member with the largest key is put at the end. -/
theorem insertMember_of_forall_lt {key : String} (v : Json) {members : List (String × Json)}
    (h : ∀ m ∈ members, m.1 < key) : insertMember key v members = members ++ [(key, v)] := by
  induction members with
  | nil => rfl
  | cons m rest ih =>
    obtain ⟨k, v'⟩ := m
    obtain ⟨hk, hrest⟩ := List.forall_mem_cons.1 h
    have hk' : k < key := hk
    rw [insertMember, if_neg (String.lt_asymm hk'), if_neg (String.ne_of_lt hk').symm, ih hrest]
    rfl

theorem foldl_insertMember_of_pairwise {members start : List (String × Json)}
    (h : (start ++ members).Pairwise fun a b => a.1 < b.1) :
    members.foldl (fun sorted (k, v) => insertMember k v sorted) start = start ++ members := by
  induction members generalizing start with
  | nil => simp
  | cons m rest ih =>
    obtain ⟨k, v⟩ := m
    have hlast : ∀ m ∈ start, m.1 < k := by
      intro m hm
      exact (List.pairwise_append.1 h).2.2 m hm (k, v) List.mem_cons_self
    have hinsert := insertMember_of_forall_lt v hlast
    rw [List.foldl_cons]
    simp only [hinsert]
    rw [ih (by simpa using h), List.append_assoc, List.singleton_append]

/-- **A value in order** is its own sorted form. -/
theorem sorted_of_isOrdered {v : Json} (h : v.IsOrdered) : v.sorted = v := by
  induction h with
  | null => exact sorted_null
  | bool b => exact sorted_bool b
  | number n => exact sorted_number n
  | string s => exact sorted_string s
  | array _ ih =>
    rw [sorted_array, List.map_congr_left ih, List.map_id']
  | @object members hkeys _ ih =>
    have hmembers : ∀ m ∈ members, (m.1, m.2.sorted) = m := fun m hm => Prod.ext rfl (ih m hm)
    rw [sorted_object, List.map_congr_left hmembers, List.map_id', sortMembers,
      foldl_insertMember_of_pairwise (by simpa using hkeys), List.nil_append]

/-! ## Blanks -/

section

variable {cs : List Char}

theorem skipBlanks_cons {c : Char} (h : isBlank c = false) (cs : List Char) :
    skipBlanks (c :: cs) = c :: cs := by
  rw [skipBlanks, List.dropWhile_cons, h]
  rfl

@[simp] theorem skipBlanks_lineBreak (indented : Bool) (depth : Nat) (cs : List Char) :
    skipBlanks (lineBreak indented depth ++ cs) = skipBlanks cs := by
  cases indented with
  | false => rfl
  | true =>
    refine List.dropWhile_append_of_pos fun c hc => ?_
    rcases List.mem_cons.1 hc with rfl | hc
    · rfl
    · rw [List.eq_of_mem_replicate hc]
      rfl

/-- Blanks in front of a value do not matter. -/
theorem value?_congr {ds : List Char} (h : skipBlanks cs = skipBlanks ds) (fuel : Nat) :
    value? fuel cs = value? fuel ds := by
  cases fuel with
  | zero => rw [value?, value?]
  | succ fuel => rw [value?, value?, h]

end

/-! ## Values -/

/-- Every number in the value can be read back. -/
inductive IsReadable : Json → Prop
  | null : IsReadable .null
  | bool (b : Bool) : IsReadable (.bool b)
  | number {n : Number} (h : n.IsReadable) : IsReadable (.number n)
  | string (s : String) : IsReadable (.string s)
  | array {items : List Json} (h : ∀ v ∈ items, IsReadable v) : IsReadable (.array items)
  | object {members : List (String × Json)} (h : ∀ m ∈ members, IsReadable m.2) :
      IsReadable (.object members)

/-- The text of the value is read back, whatever follows it, unless that could be part of a number.
The fuel of the reader need not exceed the length of the text. -/
def IsReadBack (v : Json) : Prop :=
  ∀ (indented : Bool) (depth fuel : Nat) (rest : List Char),
    (v.chars indented depth).length ≤ fuel → EndsNumber rest →
      value? fuel (v.chars indented depth ++ rest) = some (v.sorted, rest)

section

variable {c : Char}

theorem ne_of_startsNumber (hc : c = '-' ∨ Decimal.isDigit c) {d : Char}
    (hd : d ≠ '-' ∧ Decimal.isDigit d = false) : c ≠ d := by
  rintro rfl
  rcases hc with hc | hc
  · exact hd.1 hc
  · rw [hd.2] at hc
    cases hc

theorem isBlank_of_startsNumber (hc : c = '-' ∨ Decimal.isDigit c) : isBlank c = false := by
  have hne {d : Char} := ne_of_startsNumber hc (d := d)
  simp only [isBlank, Bool.or_eq_false_iff, beq_eq_false_iff_ne]
  exact ⟨⟨⟨hne (by decide), hne (by decide)⟩, hne (by decide)⟩, hne (by decide)⟩

theorem value?_number (hc : c = '-' ∨ Decimal.isDigit c) (fuel : Nat) (cs : List Char) :
    value? (fuel + 1) (c :: cs) = (number? (c :: cs)).map fun (n, r) => (.number n, r) := by
  have hne {d : Char} := ne_of_startsNumber hc (d := d)
  rw [value?, skipBlanks_cons (isBlank_of_startsNumber hc)]
  split
  · next heq => cases heq; exact absurd rfl (hne (d := 'n') (by decide))
  · next heq => cases heq; exact absurd rfl (hne (d := 't') (by decide))
  · next heq => cases heq; exact absurd rfl (hne (d := 'f') (by decide))
  · next heq => cases heq; exact absurd rfl (hne (d := '"') (by decide))
  · next heq => cases heq; exact absurd rfl (hne (d := '[') (by decide))
  · next heq => cases heq; exact absurd rfl (hne (d := '{') (by decide))
  · rfl

end

/-- A value starts with neither a blank nor a closing bracket. -/
theorem exists_cons_chars {v : Json} (h : v.IsReadable) (indented : Bool) (depth : Nat) :
    ∃ c cs, v.chars indented depth = c :: cs ∧ isBlank c = false ∧ c ≠ ']' := by
  cases h with
  | null => exact ⟨'n', _, by rw [chars]; rfl, by decide, by decide⟩
  | bool b =>
    cases b with
    | false => exact ⟨'f', _, by rw [chars]; rfl, by decide, by decide⟩
    | true => exact ⟨'t', _, by rw [chars]; rfl, by decide, by decide⟩
  | number h =>
    obtain ⟨c, cs, hcs, hc⟩ := exists_cons_of_number? (number?_numeral h)
    exact ⟨c, cs, by rw [chars, hcs], isBlank_of_startsNumber hc,
      ne_of_startsNumber hc (by decide)⟩
  | string s => exact ⟨'"', _, by rw [chars]; rfl, by decide, by decide⟩
  | @array items h =>
    cases items with
    | nil => exact ⟨'[', _, by rw [chars], by decide, by decide⟩
    | cons item items => exact ⟨'[', _, by rw [chars], by decide, by decide⟩
  | @object members h =>
    cases members with
    | nil => exact ⟨'{', _, by rw [chars], by decide, by decide⟩
    | cons member members => exact ⟨'{', _, by rw [chars], by decide, by decide⟩

section

variable {indented : Bool} {depth : Nat}

theorem endsNumber_lineBreak {c : Char}
    (hc : Decimal.isDigit c = false ∧ c ≠ '.' ∧ c ≠ 'e' ∧ c ≠ 'E') (cs : List Char) :
    EndsNumber (lineBreak indented depth ++ c :: cs) := by
  cases indented with
  | false => exact endsNumber_cons hc cs
  | true => exact endsNumber_cons (by decide) _

theorem endsNumber_moreItems (items : List Json) (rest : List Char) :
    EndsNumber (moreItems indented depth items ++ rest) := by
  cases items with
  | nil =>
    rw [moreItems, List.append_assoc]
    exact endsNumber_lineBreak (by decide) _
  | cons item items =>
    rw [moreItems, List.cons_append]
    exact endsNumber_cons (by decide) _

theorem endsNumber_moreMembers (members : List (String × Json)) (rest : List Char) :
    EndsNumber (moreMembers indented depth members ++ rest) := by
  cases members with
  | nil =>
    rw [moreMembers, List.append_assoc]
    exact endsNumber_lineBreak (by decide) _
  | cons member members =>
    rw [moreMembers, List.cons_append]
    exact endsNumber_cons (by decide) _

/-- One item is read, and what follows it decides how to go on. -/
theorem items?_succ {item : Json} (h : item.IsReadBack) {fuel : Nat}
    (hfuel : (item.chars indented (depth + 1)).length ≤ fuel) {tail : List Char}
    (htail : EndsNumber tail) :
    items? (fuel + 1)
        (lineBreak indented (depth + 1) ++ (item.chars indented (depth + 1) ++ tail)) =
      match skipBlanks tail with
      | ',' :: rest => (items? fuel rest).map fun (vs, r) => (item.sorted :: vs, r)
      | ']' :: rest => some ([item.sorted], rest)
      | _ => none := by
  rewrite [items?, value?_congr (skipBlanks_lineBreak _ _ _),
    h indented (depth + 1) fuel tail hfuel htail]
  rfl

/-- The items of an array are read back, one after the other. -/
theorem items?_chars {item : Json} {items : List Json} (h : ∀ v ∈ item :: items, v.IsReadBack)
    {fuel : Nat} (hfuel : (item.chars indented (depth + 1)).length +
      (moreItems indented depth items).length ≤ fuel) (rest : List Char) :
    items? fuel (lineBreak indented (depth + 1) ++ (item.chars indented (depth + 1) ++
      (moreItems indented depth items ++ rest))) =
      some ((item :: items).map sorted, rest) := by
  induction items generalizing item fuel with
  | nil =>
    rw [moreItems, List.length_append, List.length_singleton] at hfuel
    obtain ⟨fuel, rfl⟩ : ∃ k, fuel = k + 1 := Nat.exists_eq_add_one.2 (by omega)
    rw [items?_succ (h item List.mem_cons_self) (by omega) (endsNumber_moreItems [] rest),
      moreItems, List.append_assoc, skipBlanks_lineBreak]
    rfl
  | cons next items ih =>
    rw [moreItems] at hfuel
    simp only [List.length_cons, List.length_append] at hfuel
    obtain ⟨fuel, rfl⟩ : ∃ k, fuel = k + 1 := Nat.exists_eq_add_one.2 (by omega)
    have hmore : (next.chars indented (depth + 1)).length +
        (moreItems indented depth items).length ≤ fuel := by omega
    have hnext := ih (fun v hv => h v (List.mem_cons_of_mem _ hv)) hmore
    rw [items?_succ (h item List.mem_cons_self) (by omega) (endsNumber_moreItems _ rest),
      moreItems, List.cons_append, skipBlanks_cons (by decide)]
    simp only [List.append_assoc, hnext]
    rfl

theorem length_chars_le_memberChars (member : String × Json) :
    (member.2.chars indented depth).length ≤ (memberChars indented depth member).length := by
  rw [memberChars, List.length_append]
  exact Nat.le_add_left _ _

/-- What stands between a key and its value is a colon, then at most a blank. -/
theorem exists_colon (indented : Bool) :
    ∃ blanks, colon indented = ':' :: blanks ∧
      ∀ cs, skipBlanks (blanks ++ cs) = skipBlanks cs := by
  cases indented with
  | false => exact ⟨[], rfl, fun cs => rfl⟩
  | true => exact ⟨[' '], rfl, fun cs => rfl⟩

/-- One member is read, and what follows it decides how to go on. -/
theorem members?_succ {member : String × Json} (h : member.2.IsReadBack) {fuel : Nat}
    (hfuel : (memberChars indented (depth + 1) member).length ≤ fuel) {tail : List Char}
    (htail : EndsNumber tail) :
    members? (fuel + 1)
        (lineBreak indented (depth + 1) ++ (memberChars indented (depth + 1) member ++ tail)) =
      match skipBlanks tail with
      | ',' :: rest =>
        (members? fuel rest).map fun (ms, r) => ((member.1, member.2.sorted) :: ms, r)
      | '}' :: rest => some ([(member.1, member.2.sorted)], rest)
      | _ => none := by
  have hv := h indented (depth + 1) fuel tail
    (Nat.le_trans (length_chars_le_memberChars member) hfuel) htail
  obtain ⟨key, v⟩ := member
  obtain ⟨blanks, hcolon, hblanks⟩ := exists_colon indented
  generalize hread : members? (fuel + 1) _ = read
  rw [members?, skipBlanks_lineBreak, memberChars, quoted, hcolon] at hread
  simp only [List.cons_append, List.append_assoc, List.nil_append] at hread
  rw [skipBlanks_cons (by decide)] at hread
  simp only [string?_escape] at hread
  rw [skipBlanks_cons (by decide)] at hread
  simp only [value?_congr (hblanks _), hv, String.ofList_toList] at hread
  exact hread.symm

/-- The members of an object are read back, one after the other. -/
theorem members?_chars {member : String × Json} {members : List (String × Json)}
    (h : ∀ m ∈ member :: members, m.2.IsReadBack) {fuel : Nat}
    (hfuel : (memberChars indented (depth + 1) member).length +
      (moreMembers indented depth members).length ≤ fuel) (rest : List Char) :
    members? fuel (lineBreak indented (depth + 1) ++ (memberChars indented (depth + 1) member ++
      (moreMembers indented depth members ++ rest))) =
      some ((member :: members).map fun m => (m.1, m.2.sorted), rest) := by
  induction members generalizing member fuel with
  | nil =>
    rw [moreMembers, List.length_append, List.length_singleton] at hfuel
    obtain ⟨fuel, rfl⟩ : ∃ k, fuel = k + 1 := Nat.exists_eq_add_one.2 (by omega)
    rw [members?_succ (h member List.mem_cons_self) (by omega) (endsNumber_moreMembers [] rest),
      moreMembers, List.append_assoc, skipBlanks_lineBreak]
    rfl
  | cons next members ih =>
    rw [moreMembers] at hfuel
    simp only [List.length_cons, List.length_append] at hfuel
    obtain ⟨fuel, rfl⟩ : ∃ k, fuel = k + 1 := Nat.exists_eq_add_one.2 (by omega)
    have hmore : (memberChars indented (depth + 1) next).length +
        (moreMembers indented depth members).length ≤ fuel := by omega
    have hnext := ih (fun m hm => h m (List.mem_cons_of_mem _ hm)) hmore
    rw [members?_succ (h member List.mem_cons_self) (by omega) (endsNumber_moreMembers _ rest),
      moreMembers, List.cons_append, skipBlanks_cons (by decide)]
    simp only [List.append_assoc, hnext]
    rfl

end

/-- Fuel for the text of a value is fuel for one step at least. -/
theorem exists_fuel {v : Json} (h : v.IsReadable) {indented : Bool} {depth fuel : Nat}
    (hfuel : (v.chars indented depth).length ≤ fuel) : ∃ k, fuel = k + 1 := by
  obtain ⟨c, cs, hcs, -⟩ := exists_cons_chars h indented depth
  rw [hcs, List.length_cons] at hfuel
  exact Nat.exists_eq_add_one.2 (by omega)

theorem isReadBack_array {items : List Json} (h : ∀ v ∈ items, v.IsReadable)
    (ih : ∀ v ∈ items, v.IsReadBack) : (Json.array items).IsReadBack := by
  intro indented depth fuel rest hfuel hrest
  obtain ⟨fuel, rfl⟩ := exists_fuel (.array h) hfuel
  cases items with
  | nil =>
    rw [chars, value?, sorted_array]
    rfl
  | cons item items =>
    rw [chars] at hfuel ⊢
    simp only [List.length_cons, List.length_append] at hfuel
    have hmore : (item.chars indented (depth + 1)).length +
        (moreItems indented depth items).length ≤ fuel := by omega
    have hitems := items?_chars ih hmore rest
    rw [value?, List.cons_append, skipBlanks_cons (by decide)]
    simp only [List.append_assoc]
    split
    · next heq =>
      obtain ⟨c, cs, hcs, hblank, hc⟩ :=
        exists_cons_chars (h item List.mem_cons_self) indented (depth + 1)
      rw [skipBlanks_lineBreak, hcs, List.cons_append, skipBlanks_cons hblank] at heq
      cases heq
      exact absurd rfl hc
    · rw [hitems, sorted_array]
      rfl

theorem isReadBack_object {members : List (String × Json)} (h : ∀ m ∈ members, m.2.IsReadable)
    (ih : ∀ m ∈ members, m.2.IsReadBack) : (Json.object members).IsReadBack := by
  intro indented depth fuel rest hfuel hrest
  obtain ⟨fuel, rfl⟩ := exists_fuel (.object h) hfuel
  cases members with
  | nil =>
    rw [chars, value?, sorted_object]
    rfl
  | cons member members =>
    rw [chars] at hfuel ⊢
    simp only [List.length_cons, List.length_append] at hfuel
    have hmore : (memberChars indented (depth + 1) member).length +
        (moreMembers indented depth members).length ≤ fuel := by omega
    have hmembers := members?_chars ih hmore rest
    rw [value?, List.cons_append, skipBlanks_cons (by decide)]
    simp only [List.append_assoc]
    split
    · next heq =>
      rw [skipBlanks_lineBreak, memberChars, quoted, List.cons_append, List.cons_append,
        List.cons_append, skipBlanks_cons (by decide)] at heq
      cases heq
    · rw [hmembers, sorted_object]
      rfl

/-- **The text of a value is read back**, whatever follows it. -/
theorem isReadBack_of_isReadable {v : Json} (h : v.IsReadable) : v.IsReadBack := by
  induction h with
  | null =>
    intro indented depth fuel rest hfuel hrest
    obtain ⟨fuel, rfl⟩ := exists_fuel .null hfuel
    rw [chars, value?, sorted_null]
    rfl
  | bool b =>
    intro indented depth fuel rest hfuel hrest
    obtain ⟨fuel, rfl⟩ := exists_fuel (.bool b) hfuel
    rw [chars, value?, sorted_bool]
    cases b <;> rfl
  | number h =>
    intro indented depth fuel rest hfuel hrest
    obtain ⟨fuel, rfl⟩ := exists_fuel (.number h) hfuel
    -- the first character of a numeral is one that numbers start with
    obtain ⟨c, cs, hcs, hc⟩ := exists_cons_of_number? (number?_numeral h)
    have hn := number?_append hrest (number?_numeral h)
    rw [hcs] at hn
    rw [chars, hcs, List.cons_append, value?_number hc, ← List.cons_append, hn, sorted_number]
    rfl
  | string s =>
    intro indented depth fuel rest hfuel hrest
    obtain ⟨fuel, rfl⟩ := exists_fuel (.string s) hfuel
    rw [chars, value?, sorted_string, quoted, List.cons_append, skipBlanks_cons (by decide),
      List.append_assoc]
    simp only [List.cons_append, List.nil_append, string?_escape, Option.map_some,
      String.ofList_toList]
  | array h ih => exact isReadBack_array h ih
  | object h ih => exact isReadBack_object h ih

/-- **A written value is read back**, with its members in key order. -/
theorem parse?_render {v : Json} (h : v.IsReadable) (indented : Bool) :
    parse? (v.render indented) = some v.sorted := by
  have hv := isReadBack_of_isReadable h indented 0 ((v.chars indented 0).length + 1) []
    (Nat.le_succ _) endsNumber_nil
  rw [List.append_nil] at hv
  rw [parse?, render, String.toList_ofList]
  simp only [hv]
  rfl

end GoOutline.Json
