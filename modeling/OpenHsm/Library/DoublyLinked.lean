import Mathlib.Tactic

/-!
Intrusive doubly linked lists over an arbitrary node type: the two link maps are
plain functions, the list is ghost.

* `Path next p l q`: following `next` from `p` visits `l` and arrives at `q`;
  `path_append` splits a walk and `Path.congr` is its frame rule.
* `Back prev b l`: `prev` is the inverse of the walk along `l`, and the first node
  points back to `b`.
* `DList`: head, tail and both links describe the list `l`.  The link of the first
  node is the parameter `b`: `none` in a well kept list, anything in a list whose
  removals at the front leave it stale.
* `DList.append`, `DList.pop`, `DList.remove`: what appending a node, taking the
  first node and unlinking a node do to the list.  `DList.remove` is the only one
  that reads `b`, and only at the front.
-/

namespace DoublyLinked

variable {α : Type*}

/-! ### Walks -/

/-- Following `next` from `p` visits the nodes of `l` in order and arrives at `q`. -/
def Path (next : α → Option α) : Option α → List α → Option α → Prop
  | p, [], q => p = q
  | p, x :: xs, q => p = some x ∧ Path next (next x) xs q

@[simp] lemma path_nil {next : α → Option α} {p q : Option α} :
    Path next p [] q ↔ p = q := Iff.rfl

@[simp] lemma path_cons {next : α → Option α} {p q : Option α} {x : α} {xs : List α} :
    Path next p (x :: xs) q ↔ p = some x ∧ Path next (next x) xs q := Iff.rfl

lemma path_append {next : α → Option α} {p q : Option α} {xs ys : List α} :
    Path next p (xs ++ ys) q ↔ ∃ m, Path next p xs m ∧ Path next m ys q := by
  induction xs generalizing p with
  | nil => simp
  | cons x xs ih => simp [ih, and_assoc]

/-- A walk reads the links of its own nodes only. -/
lemma Path.congr {next next' : α → Option α} {p q : Option α} {l : List α}
    (h : Path next p l q) (heq : ∀ x ∈ l, next' x = next x) : Path next' p l q := by
  induction l generalizing p with
  | nil => exact h
  | cons x xs ih =>
      refine ⟨h.1, ?_⟩
      rw [heq x (by simp)]
      exact ih h.2 fun y hy => heq y (by simp [hy])

/-- A walk to the end starts at the first node of its list. -/
lemma Path.head_eq {next : α → Option α} {p : Option α} {l : List α}
    (h : Path next p l none) : p = l.head? := by
  cases l with
  | nil => exact h
  | cons x xs => exact h.1

/-- A pointer starts at most one walk to the end. -/
lemma Path.unique {next : α → Option α} {p : Option α} {l l' : List α}
    (h : Path next p l none) (h' : Path next p l' none) : l = l' := by
  induction l generalizing p l' with
  | nil =>
      cases l' with
      | nil => rfl
      | cons y ys => exact absurd (h.symm.trans h'.1) (by simp)
  | cons x xs ih =>
      cases l' with
      | nil => exact absurd (h'.symm.trans h.1) (by simp)
      | cons y ys =>
          have hxy : x = y := Option.some.inj (h.1.symm.trans h'.1)
          subst hxy
          rw [ih h.2 h'.2]

/-- A walk to the end never comes back. -/
lemma Path.nodup {next : α → Option α} {p : Option α} {l : List α}
    (h : Path next p l none) : l.Nodup := by
  induction l generalizing p with
  | nil => exact List.nodup_nil
  | cons x xs ih =>
      refine List.nodup_cons.mpr ⟨fun hx => ?_, ih h.2⟩
      obtain ⟨pre, post, rfl⟩ := List.append_of_mem hx
      obtain ⟨m, -, hm, hpost⟩ := path_append.mp h.2
      have hlen := congrArg List.length (h.2.unique hpost)
      rw [List.length_append, List.length_cons] at hlen
      omega

/-- A walk to the end visits exactly the nodes that can be arrived at. -/
lemma Path.mem_iff {next : α → Option α} {p : Option α} {l : List α} {x : α}
    (h : Path next p l none) : x ∈ l ↔ ∃ pre, Path next p pre (some x) := by
  constructor
  · intro hx
    obtain ⟨pre, post, rfl⟩ := List.append_of_mem hx
    obtain ⟨m, hpre, hm, -⟩ := path_append.mp h
    exact ⟨pre, hm ▸ hpre⟩
  · rintro ⟨pre, hpre⟩
    induction pre generalizing p l with
    | nil =>
        obtain rfl : p = some x := hpre
        cases l with
        | nil => cases h
        | cons y ys => simp [Option.some.inj h.1]
    | cons y pre ih =>
        cases l with
        | nil =>
            obtain rfl : p = none := h
            cases hpre.1
        | cons z zs =>
            obtain rfl : y = z := Option.some.inj (hpre.1.symm.trans h.1)
            exact List.mem_cons_of_mem _ (ih h.2 hpre.2)

/-! ### Back links -/

/-- `prev` inverts the walk along `l`, the first node pointing back to `b`. -/
def Back (prev : α → Option α) : Option α → List α → Prop
  | _, [] => True
  | b, x :: xs => prev x = b ∧ Back prev (some x) xs

@[simp] lemma back_nil {prev : α → Option α} {b : Option α} : Back prev b [] := trivial

@[simp] lemma back_cons {prev : α → Option α} {b : Option α} {x : α} {xs : List α} :
    Back prev b (x :: xs) ↔ prev x = b ∧ Back prev (some x) xs := Iff.rfl

lemma back_append {prev : α → Option α} {b : Option α} {xs ys : List α} :
    Back prev b (xs ++ ys) ↔ Back prev b xs ∧ Back prev (xs.getLast?.or b) ys := by
  induction xs generalizing b with
  | nil => simp
  | cons x xs ih =>
      have hlast : (x :: xs).getLast?.or b = xs.getLast?.or (some x) := by
        cases xs with
        | nil => simp
        | cons y ys' => rw [List.getLast?_cons_cons]; simp [List.getLast?_cons]
      rw [List.cons_append, back_cons, ih, back_cons, hlast, and_assoc]

/-- The back links of a list are read at its own nodes only. -/
lemma Back.congr {prev prev' : α → Option α} {b : Option α} {l : List α}
    (h : Back prev b l) (heq : ∀ x ∈ l, prev' x = prev x) : Back prev' b l := by
  induction l generalizing b with
  | nil => trivial
  | cons x xs ih =>
      refine ⟨?_, ih h.2 fun y hy => heq y (by simp [hy])⟩
      rw [heq x (by simp)]
      exact h.1

/-! ### Doubly linked lists -/

/-- Head, tail and the two link maps describe the list `l`, whose first node points
back to `b`. -/
structure DList (next prev : α → Option α) (head tail b : Option α) (l : List α) : Prop where
  path : Path next head l none
  back : Back prev b l
  last : tail = l.getLast?
  nodup : l.Nodup

variable {next prev : α → Option α} {head tail b : Option α} {l : List α}

lemma DList.empty : DList next prev none none b [] := ⟨rfl, trivial, rfl, List.nodup_nil⟩

lemma DList.head_eq (h : DList next prev head tail b l) : head = l.head? := h.path.head_eq

/-- The head is null exactly when the tail is. -/
lemma DList.head_none_iff (h : DList next prev head tail b l) : head = none ↔ tail = none := by
  rw [h.head_eq, h.last, List.head?_eq_none_iff, List.getLast?_eq_none_iff]

lemma DList.tail_none_iff (h : DList next prev head tail b l) : tail = none ↔ l = [] := by
  rw [h.last, List.getLast?_eq_none_iff]

/-- The frame rule: links of other nodes do not matter. -/
lemma DList.congr {next' prev' : α → Option α} (h : DList next prev head tail b l)
    (hn : ∀ x ∈ l, next' x = next x) (hp : ∀ x ∈ l, prev' x = prev x) :
    DList next' prev' head tail b l :=
  ⟨h.path.congr hn, h.back.congr hp, h.last, h.nodup⟩

/-- The link of the first node is the parameter `b`. -/
lemma DList.prev_head (h : DList next prev head tail b l) {x : α} (hx : head = some x) :
    prev x = b := by
  cases l with
  | nil => exact absurd (h.path.symm.trans hx) (by simp)
  | cons y ys =>
      have hxy : y = x := Option.some.inj (h.path.1.symm.trans hx)
      exact hxy ▸ h.back.1

/-- What a node of the list points to. -/
lemma DList.next_eq {pre post : List α} {x : α}
    (h : DList next prev head tail b (pre ++ x :: post)) : next x = post.head? := by
  obtain ⟨m, _, hm⟩ := path_append.mp h.path
  exact hm.2.head_eq

lemma DList.prev_eq {pre post : List α} {x : α}
    (h : DList next prev head tail b (pre ++ x :: post)) : prev x = pre.getLast?.or b :=
  (back_append.mp h.back).2.1

section Update

variable [DecidableEq α]

/-- **Appending to an empty list**: the node becomes the head and the tail. -/
theorem DList.append_empty {x : α} (h : DList next prev head none b l) :
    DList (Function.update next x none) (Function.update prev x none) (some x) (some x) none
      (l ++ [x]) := by
  obtain rfl := h.tail_none_iff.mp rfl
  exact ⟨by simp, by simp, by simp, by simp⟩

/-- **Appending**: a node outside the list is linked behind the last one. -/
theorem DList.append {x t : α} (h : DList next prev head (some t) b l) (hx : x ∉ l) :
    DList (Function.update (Function.update next x none) t (some x))
      (Function.update prev x (some t)) head (some x) b (l ++ [x]) := by
  obtain ⟨init, rfl⟩ : ∃ init, l = init ++ [t] := List.getLast?_eq_some_iff.mp h.last.symm
  have hnodup := h.nodup
  have htx : t ≠ x := fun he => hx (by simp [he])
  have ht : t ∉ init := fun hm => by
    rw [List.nodup_append] at hnodup
    exact hnodup.2.2 t hm t (by simp) rfl
  obtain ⟨m, hm, hmt⟩ := path_append.mp h.path
  refine ⟨?_, ?_, by simp, ?_⟩
  · -- the walk: unchanged up to the old last node, which now leads to `x`
    rw [List.append_assoc, path_append]
    refine ⟨m, hm.congr fun y hy => ?_, hmt.1, ?_⟩
    · have hyt : y ≠ t := fun he => ht (he ▸ hy)
      have hyx : y ≠ x := fun he => hx (by simp [← he, hy])
      simp [hyt, hyx]
    · simp [Function.update_of_ne htx.symm]
  · rw [back_append]
    refine ⟨h.back.congr fun y hy => ?_, by simp⟩
    exact Function.update_of_ne (ne_of_mem_of_not_mem hy hx) _ _
  · rw [List.nodup_append]
    refine ⟨hnodup, by simp, ?_⟩
    rintro y hy z hz rfl
    exact hx (List.mem_singleton.mp hz ▸ hy)

/-- **Taking the first node**: the node is unlinked, but the new first node still
points back to it. -/
theorem DList.pop {x : α} {xs : List α} (h : DList next prev head tail b (x :: xs)) :
    DList (Function.update next x none) (Function.update prev x none) (next x)
      (if next x = none then none else tail) (some x) xs := by
  have hx : x ∉ xs := (List.nodup_cons.mp h.nodup).1
  have hne : ∀ y ∈ xs, y ≠ x := fun y hy he => hx (he ▸ hy)
  refine ⟨?_, ?_, ?_, (List.nodup_cons.mp h.nodup).2⟩
  · exact h.path.2.congr fun y hy => Function.update_of_ne (hne y hy) _ _
  · exact h.back.2.congr fun y hy => Function.update_of_ne (hne y hy) _ _
  · have hnext : next x = xs.head? := h.path.2.head_eq
    cases xs with
    | nil => simp [hnext]
    | cons y ys => simp [hnext, h.last]

/-- **Unlinking a node**: its neighbours are joined.  At the front the code reads the
link of the first node, so there the list has to be well kept. -/
theorem DList.remove {pre post : List α} {x : α}
    (h : DList next prev head tail b (pre ++ x :: post)) (hb : pre = [] → b = none) :
    DList ((prev x).elim next fun p => Function.update next p (next x))
      ((next x).elim prev fun y => Function.update prev y (prev x))
      ((prev x).elim (next x) fun _ => head)
      ((next x).elim (prev x) fun _ => tail)
      b (pre ++ post) := by
  have hnext := h.next_eq
  have hprev : prev x = pre.getLast? := by
    rw [h.prev_eq]
    rcases List.eq_nil_or_concat' pre with rfl | ⟨init, p, rfl⟩
    · simp [hb rfl]
    · simp
  have hsub : (pre ++ post).Nodup :=
    h.nodup.sublist ((List.sublist_cons_self x post).append_left pre)
  obtain ⟨m, hm, hmx, hpost⟩ := path_append.mp h.path
  obtain ⟨hbpre, hbx, hbpost⟩ := back_append.mp h.back
  rw [hnext] at hpost ⊢
  rw [hprev] at hbx ⊢
  refine ⟨?_, ?_, ?_, hsub⟩
  · -- the walk skips `x`
    rcases List.eq_nil_or_concat' pre with rfl | ⟨init, p, rfl⟩
    · simpa using hpost
    · have hp : p ∉ init ∧ p ∉ post := by
        rw [List.append_assoc, List.nodup_append] at hsub
        obtain ⟨-, h2, h3⟩ := hsub
        exact ⟨fun hq => h3 p hq p (by simp) rfl, (List.nodup_cons.mp h2).1⟩
      obtain ⟨m', hm', hmp, -⟩ := path_append.mp hm
      rw [List.getLast?_append, List.getLast?_singleton, Option.some_or, Option.elim_some,
        Option.elim_some, List.append_assoc, path_append]
      refine ⟨m', hm'.congr fun y hy => ?_, hmp, ?_⟩
      · exact Function.update_of_ne (ne_of_mem_of_not_mem hy hp.1) _ _
      · rw [Function.update_self]
        exact hpost.congr fun y hy =>
          Function.update_of_ne (ne_of_mem_of_not_mem hy hp.2) _ _
  · cases post with
    | nil => simpa using hbpre
    | cons y ys =>
        have hy : y ∉ pre ∧ y ∉ ys := by
          rw [List.nodup_append] at hsub
          obtain ⟨-, h2, h3⟩ := hsub
          exact ⟨fun hq => h3 y hq y (by simp) rfl, (List.nodup_cons.mp h2).1⟩
        rw [back_append]
        refine ⟨hbpre.congr fun z hz =>
          Function.update_of_ne (ne_of_mem_of_not_mem hz hy.1) _ _, ?_, ?_⟩
        · simpa using hbx
        · exact hbpost.2.congr fun z hz =>
            Function.update_of_ne (ne_of_mem_of_not_mem hz hy.2) _ _
  · cases post with
    | nil => simp
    | cons y ys => simpa using h.last

end Update

end DoublyLinked
