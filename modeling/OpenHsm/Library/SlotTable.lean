import Mathlib.Data.Set.Card
import Mathlib.Tactic

/-!
Tables of a fixed number of slots, over arbitrary keys and data.  A slot that is used holds a key
and the data that belong to it.

* `Table`, `initOnce`, `findFree`, `find`, `occupy`, `release`, `lookup`: a table that is wiped at
  its first use, and what is done with it.
* `Represents t m`: the table represents the finite map `m`, every key in one slot.  It goes on so
  when the table is wiped at its first use (`Represents.initOnce`), when a new key takes a free
  slot (`Represents.occupy`) and when the slot of a key is released (`Represents.release`).
* `Represents.lookup_eq`: the search for a key finds what the map has.
* `Represents.ncard_le`, `Represents.findFree_none_iff`: the map has no more keys than there are
  slots, and as many exactly where there is no free slot.
-/

namespace SlotTable

variable {n : ℕ} {κ δ : Type*}

/-- A slot. -/
structure Slot (κ δ : Type*) where
  key : Option κ
  used : Bool
  data : δ
  deriving DecidableEq, Repr

/-- The slots, and whether they were wiped. -/
structure Table (n : ℕ) (κ δ : Type*) where
  slots : Fin n → Slot κ δ
  init : Bool
  deriving DecidableEq

/-- The table is wiped unless it was before. -/
def initOnce (zero : δ) (t : Table n κ δ) : Table n κ δ :=
  if t.init then t else ⟨fun _ => ⟨none, false, zero⟩, true⟩

/-- The first slot that is not used. -/
def findFree (t : Table n κ δ) : Option (Fin n) :=
  (List.finRange n).find? fun i => !(t.slots i).used

/-- The first slot that is used for the key. -/
def find [DecidableEq κ] (t : Table n κ δ) (k : κ) : Option (Fin n) :=
  (List.finRange n).find? fun i => decide ((t.slots i).key = some k) && (t.slots i).used

/-- A slot is written. -/
def Table.set (t : Table n κ δ) (i : Fin n) (slot : Slot κ δ) : Table n κ δ :=
  { t with slots := Function.update t.slots i slot }

/-- The slot is used for the key. -/
def occupy (t : Table n κ δ) (i : Fin n) (k : κ) (d : δ) : Table n κ δ :=
  t.set i ⟨some k, true, d⟩

/-- The slot of the key is given back; `wipe` is what becomes of its data. -/
def release [DecidableEq κ] (wipe : δ → δ) (t : Table n κ δ) (k : κ) : Table n κ δ :=
  match find t k with
  | some i => t.set i ⟨none, false, wipe (t.slots i).data⟩
  | none => t

/-- The data of the key. -/
def lookup [DecidableEq κ] (t : Table n κ δ) (k : κ) : Option δ :=
  (find t k).map fun i => (t.slots i).data

/-- The table represents the map: a slot that is used has a key, no two slots have the same, and the
keys with their data are those of the map. -/
structure Represents (t : Table n κ δ) (m : κ → Option δ) : Prop where
  fresh : t.init = false → ∀ i, (t.slots i).used = false
  named : ∀ i, (t.slots i).used = true → (t.slots i).key.isSome = true
  alone : ∀ i j k, (t.slots i).used = true → (t.slots j).used = true →
    (t.slots i).key = some k → (t.slots j).key = some k → i = j
  data : ∀ k d, m k = some d ↔ ∃ i, t.slots i = ⟨some k, true, d⟩

variable {t : Table n κ δ} {m : κ → Option δ} {i : Fin n} {k : κ} {d : δ}

@[simp] lemma set_slots_self (slot : Slot κ δ) : (t.set i slot).slots i = slot :=
  Function.update_self ..

@[simp] lemma set_slots_of_ne {j : Fin n} (hj : j ≠ i) (slot : Slot κ δ) :
    (t.set i slot).slots j = t.slots j :=
  Function.update_of_ne hj ..

@[simp] lemma set_init (slot : Slot κ δ) : (t.set i slot).init = t.init := rfl

/-! ### The searches -/

lemma findFree_some (h : findFree t = some i) : (t.slots i).used = false := by
  simpa using List.find?_some h

lemma findFree_none : findFree t = none ↔ ∀ i, (t.slots i).used = true := by
  rw [findFree, List.find?_eq_none]
  simp

lemma find_some [DecidableEq κ] (h : find t k = some i) :
    (t.slots i).key = some k ∧ (t.slots i).used = true := by
  have hi := List.find?_some h
  rwa [Bool.and_eq_true, decide_eq_true_eq] at hi

lemma find_none [DecidableEq κ] (h : find t k = none) (i : Fin n)
    (hused : (t.slots i).used = true) : (t.slots i).key ≠ some k := by
  intro hkey
  have hi := List.find?_eq_none.mp h i (List.mem_finRange i)
  rw [Bool.and_eq_true, decide_eq_true_eq] at hi
  exact hi ⟨hkey, hused⟩

/-- A used slot with its key. -/
lemma slot_eq (hkey : (t.slots i).key = some k) (hused : (t.slots i).used = true) :
    t.slots i = ⟨some k, true, (t.slots i).data⟩ := by
  rw [← hkey, ← hused]

/-! ### What a table represents -/

/-- A table that was never used represents nothing. -/
lemma represents_empty (hused : ∀ i, (t.slots i).used = false) : Represents t fun _ => none := by
  refine ⟨fun _ => hused, fun i hi => ?_, fun i j k hi => ?_, fun k d => ?_⟩
  · rw [hused i] at hi
    cases hi
  · rw [hused i] at hi
    cases hi
  · refine iff_of_false (by simp) ?_
    rintro ⟨i, hi⟩
    have hfree := hused i
    rw [hi] at hfree
    cases hfree

namespace Represents

/-- What is in a slot that is used is in the map. -/
lemma mem (h : Represents t m) (hkey : (t.slots i).key = some k) (hused : (t.slots i).used = true) :
    m k = some (t.slots i).data :=
  (h.data k _).mpr ⟨i, slot_eq hkey hused⟩

/-- What is in no slot is not in the map. -/
lemma absent (h : Represents t m) (hno : ∀ i, (t.slots i).used = true → (t.slots i).key ≠ some k) :
    m k = none := by
  rw [Option.eq_none_iff_forall_ne_some]
  intro d hd
  obtain ⟨i, hi⟩ := (h.data k d).mp hd
  exact hno i (congrArg Slot.used hi) (congrArg Slot.key hi)

/-- The first use wipes a table in which nothing is used. -/
lemma initOnce (h : Represents t m) (zero : δ) : Represents (initOnce zero t) m := by
  rw [SlotTable.initOnce]
  split
  · exact h
  · next hinit =>
      have hunused := h.fresh (by simpa using hinit)
      have hmap : m = fun _ => none := by
        funext k
        refine h.absent fun i hused => ?_
        rw [hunused i] at hused
        cases hused
      rw [hmap]
      exact represents_empty fun _ => rfl

variable [DecidableEq κ]

/-- **A new key takes a free slot**, in a table that is in use. -/
lemma occupy (h : Represents t m) (hinit : t.init = true) (hfree : (t.slots i).used = false)
    (hnew : m k = none) (d : δ) :
    Represents (occupy t i k d) (Function.update m k (some d)) := by
  -- the key is in no other slot
  have hno : ∀ j, (t.slots j).used = true → (t.slots j).key ≠ some k := by
    intro j hused hkey
    rw [h.mem hkey hused] at hnew
    cases hnew
  rw [SlotTable.occupy]
  refine ⟨fun hne => ?_, fun j hj => ?_, fun a b c ha hb hak hbk => ?_, fun c e => ?_⟩
  · rw [set_init, hinit] at hne
    cases hne
  · by_cases hji : j = i
    · rw [hji, set_slots_self]
      rfl
    · rw [set_slots_of_ne hji] at hj ⊢
      exact h.named j hj
  · by_cases hai : a = i <;> by_cases hbi : b = i
    · rw [hai, hbi]
    · rw [hai, set_slots_self] at hak
      rw [set_slots_of_ne hbi] at hb hbk
      exact absurd (hbk.trans hak.symm) (hno b hb)
    · rw [hbi, set_slots_self] at hbk
      rw [set_slots_of_ne hai] at ha hak
      exact absurd (hak.trans hbk.symm) (hno a ha)
    · rw [set_slots_of_ne hai] at ha hak
      rw [set_slots_of_ne hbi] at hb hbk
      exact h.alone a b c ha hb hak hbk
  · by_cases hc : c = k
    · subst hc
      rw [Function.update_self]
      constructor
      · rintro ⟨⟩
        exact ⟨i, set_slots_self _⟩
      · rintro ⟨j, hj⟩
        by_cases hji : j = i
        · rw [hji, set_slots_self] at hj
          cases hj
          rfl
        · rw [set_slots_of_ne hji] at hj
          exact absurd (congrArg Slot.key hj) (hno j (congrArg Slot.used hj))
    · rw [Function.update_of_ne hc, h.data]
      refine exists_congr fun j => ?_
      by_cases hji : j = i
      · subst hji
        rw [set_slots_self]
        refine iff_of_false (fun hj => ?_) fun hj => ?_
        · rw [hj] at hfree
          cases hfree
        · cases hj
          exact hc rfl
      · rw [set_slots_of_ne hji]

/-- **A slot is given back**, and its key goes. -/
lemma release (h : Represents t m) (wipe : δ → δ) (k : κ) :
    Represents (release wipe t k) (Function.update m k none) := by
  rw [SlotTable.release]
  split
  · next i hfind =>
      obtain ⟨hkey, hused⟩ := find_some hfind
      -- only other slots are used still
      have hstill : ∀ j, ((t.set i ⟨none, false, wipe (t.slots i).data⟩).slots j).used = true →
          j ≠ i := by
        rintro j hj rfl
        rw [set_slots_self] at hj
        cases hj
      refine ⟨fun hinit => ?_, fun j hj => ?_, fun a b c ha hb hak hbk => ?_, fun c e => ?_⟩
      · rw [h.fresh hinit i] at hused
        cases hused
      · have hji := hstill j hj
        rw [set_slots_of_ne hji] at hj ⊢
        exact h.named j hj
      · have hai := hstill a ha
        have hbi := hstill b hb
        rw [set_slots_of_ne hai] at ha hak
        rw [set_slots_of_ne hbi] at hb hbk
        exact h.alone a b c ha hb hak hbk
      · by_cases hc : c = k
        · subst hc
          rw [Function.update_self]
          refine iff_of_false (by simp) ?_
          rintro ⟨j, hj⟩
          have hji : j ≠ i := hstill j (congrArg Slot.used hj)
          rw [set_slots_of_ne hji] at hj
          exact hji (h.alone j i c (congrArg Slot.used hj) hused (congrArg Slot.key hj) hkey)
        · rw [Function.update_of_ne hc, h.data]
          refine exists_congr fun j => ?_
          by_cases hji : j = i
          · subst hji
            rw [set_slots_self]
            refine iff_of_false (fun hj => ?_) fun hj => by cases hj
            rw [hj] at hkey
            exact hc (Option.some.inj hkey)
          · rw [set_slots_of_ne hji]
  · next hfind =>
      have hnone : m k = none := h.absent (find_none hfind)
      rwa [Function.update_eq_self_iff.mpr hnone.symm]

/-- **The search for a key finds what the map has.** -/
lemma lookup_eq (h : Represents t m) (k : κ) : lookup t k = m k := by
  rw [lookup]
  cases hfind : find t k with
  | some i =>
      obtain ⟨hkey, hused⟩ := find_some hfind
      exact (h.mem hkey hused).symm
  | none => exact (h.absent (find_none hfind)).symm

/-! ### Counting -/

omit [DecidableEq κ]

/-- There are as many keys as slots that are used. -/
lemma ncard_eq (h : Represents t m) :
    {k | (m k).isSome = true}.ncard = {i | (t.slots i).used = true}.ncard := by
  symm
  refine Set.ncard_congr (fun i hi => (t.slots i).key.get (h.named i hi)) ?_ ?_ ?_
  · intro i hi
    show (m _).isSome = true
    rw [h.mem (Option.some_get _).symm hi]
    rfl
  · intro i j hi hj hij
    exact h.alone i j _ hi hj (Option.some_get _).symm (by rw [hij, Option.some_get])
  · intro k hk
    obtain ⟨d, hd⟩ := Option.isSome_iff_exists.mp hk
    obtain ⟨i, hi⟩ := (h.data k d).mp hd
    exact ⟨i, congrArg Slot.used hi, by simp [hi]⟩

/-- The map has no more keys than there are slots. -/
lemma ncard_le (h : Represents t m) : {k | (m k).isSome = true}.ncard ≤ n := by
  calc {k | (m k).isSome = true}.ncard
      = {i | (t.slots i).used = true}.ncard := h.ncard_eq
    _ ≤ (Set.univ : Set (Fin n)).ncard := Set.ncard_le_ncard (Set.subset_univ _)
    _ = n := by rw [Set.ncard_univ, Nat.card_fin]

/-- **There is no free slot exactly where the map has as many keys as there are slots.** -/
lemma findFree_none_iff (h : Represents t m) :
    findFree t = none ↔ {k | (m k).isSome = true}.ncard = n := by
  rw [findFree_none, h.ncard_eq]
  constructor
  · intro hall
    rw [Set.eq_univ_of_forall (s := {i | (t.slots i).used = true}) hall, Set.ncard_univ,
      Nat.card_fin]
  · intro hcard i
    have huniv : {i | (t.slots i).used = true} = Set.univ :=
      (Set.eq_univ_iff_ncard _).mpr (by rw [hcard, Nat.card_fin])
    have hi : i ∈ {i | (t.slots i).used = true} := by
      rw [huniv]
      exact Set.mem_univ i
    exact hi

end Represents

end SlotTable
