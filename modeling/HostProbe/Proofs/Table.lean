import HostProbe.Table
import Mathlib.Data.List.Dedup
import Mathlib.Data.List.Induction

/-!
The last write wins. Reading a key of a table gives the value of the last pair written under that
key, whatever was written under other keys, and an older table only shows where there is no such
pair.

A table whose keys increase is determined by what is read from it. Writing keeps the order, so
tables that were written in different ways and read alike are the same table.
-/

namespace HostProbe

theorem findSomeRev?_append {α β : Type} (f : α → Option β) (l m : List α) :
    (l ++ m).findSomeRev? f = (m.findSomeRev? f).or (l.findSomeRev? f) := by
  rw [List.findSomeRev?_eq_findSome?_reverse, List.findSomeRev?_eq_findSome?_reverse,
    List.findSomeRev?_eq_findSome?_reverse, List.reverse_append, List.findSome?_append]

theorem findSomeRev?_cons {α β : Type} (f : α → Option β) (x : α) (l : List α) :
    (x :: l).findSomeRev? f = (l.findSomeRev? f).or (f x) :=
  findSomeRev?_append f [x] l

theorem findSomeRev?_concat {α β : Type} (f : α → Option β) (l : List α) (x : α) :
    (l ++ [x]).findSomeRev? f = (f x).or (l.findSomeRev? f) :=
  findSomeRev?_append f l [x]

/-- The found member is followed by none that gives a value. -/
theorem findSomeRev?_eq_some_iff {α β : Type} {f : α → Option β} {l : List α} {b : β} :
    l.findSomeRev? f = some b ↔
      ∃ before x rest, l = before ++ x :: rest ∧ f x = some b ∧ ∀ y ∈ rest, f y = none := by
  rw [List.findSomeRev?_eq_findSome?_reverse, List.findSome?_eq_some_iff]
  constructor
  · rintro ⟨rest, x, before, hl, hx, hrest⟩
    refine ⟨before.reverse, x, rest.reverse, ?_, hx, ?_⟩
    · simpa using congrArg List.reverse hl
    · intro y hy
      exact hrest y (List.mem_reverse.mp hy)
  · rintro ⟨before, x, rest, rfl, hx, hrest⟩
    refine ⟨rest.reverse, x, before.reverse, by simp, hx, ?_⟩
    intro y hy
    exact hrest y (List.mem_reverse.mp hy)

theorem findSomeRev?_filterMap {α β γ : Type} (f : β → Option γ) (g : α → Option β) (l : List α) :
    (l.filterMap g).findSomeRev? f = l.findSomeRev? fun x => (g x).bind f := by
  induction l using List.reverseRecOn with
  | nil => rfl
  | append_singleton l x ih =>
    rw [List.filterMap_append, findSomeRev?_append, findSomeRev?_concat, ih]
    cases hx : g x <;> simp [hx]

namespace Table

variable {α : Type}

/-- What a pair writes under a key. -/
def writes (key : String) (pair : String × α) : Option α :=
  if key = pair.1 then some pair.2 else none

theorem find?_insert (key k : String) (v : α) (t : Table α) :
    find? key (insert k v t) = (writes key (k, v)).or (find? key t) := by
  induction t with
  | nil => by_cases h : key = k <;> simp [insert, find?, writes, h]
  | cons entry t ih =>
    obtain ⟨k', v'⟩ := entry
    simp only [insert]
    split
    · next he =>
      subst he
      by_cases h : key = k <;> simp [find?, writes, h]
    · split
      · by_cases h : key = k <;> simp [find?, writes, h]
      · next hne _ =>
        -- the entry that is passed over may itself be the one that is read
        by_cases h : key = k'
        · have hk : key ≠ k := fun he => hne (he.symm.trans h)
          simp [find?, writes, h, h ▸ hk]
        · simp [find?, h, ih]

theorem find?_insertAll (key : String) (t : Table α) (pairs : List (String × α)) :
    find? key (t.insertAll pairs) = (pairs.findSomeRev? (writes key)).or (find? key t) := by
  induction pairs using List.reverseRecOn with
  | nil => rfl
  | append_singleton pairs pair ih =>
    have hlast : t.insertAll (pairs ++ [pair]) = insert pair.1 pair.2 (t.insertAll pairs) := by
      rw [insertAll, List.foldl_append]
      rfl
    rw [hlast, find?_insert, ih, findSomeRev?_concat, Option.or_assoc]

/-- Of pairs with distinct keys it does not matter which one is found first. -/
theorem findSomeRev?_writes_of_nodup {pairs : List (String × α)} (h : (pairs.map Prod.fst).Nodup)
    (key : String) : pairs.findSomeRev? (writes key) = pairs.lookup key := by
  induction pairs with
  | nil => rfl
  | cons pair pairs ih =>
    obtain ⟨k, v⟩ := pair
    obtain ⟨hfresh, hrest⟩ := List.nodup_cons.mp h
    rw [findSomeRev?_cons, ih hrest, List.lookup_cons]
    by_cases hk : key = k
    · subst hk
      have hnone : pairs.lookup key = none := by
        rw [List.lookup_eq_none_iff]
        intro p hp
        have hne : key ≠ p.1 := fun he => hfresh (List.mem_map.mpr ⟨p, hp, he.symm⟩)
        simpa using hne
      simp [hnone, writes]
    · have hother : (key == k) = false := beq_false_of_ne hk
      simp [hother, hk, writes]

theorem findSomeRev?_writes_latest {pairs : List (String × α)} {key : String} {v : α}
    {before after : List (String × α)} (hpairs : pairs = before ++ (key, v) :: after)
    (hlast : key ∉ after.map Prod.fst) : pairs.findSomeRev? (writes key) = some v := by
  apply findSomeRev?_eq_some_iff.mpr
  refine ⟨before, (key, v), after, hpairs, if_pos rfl, ?_⟩
  intro pair hpair
  exact if_neg fun he => hlast (List.mem_map.mpr ⟨pair, hpair, he.symm⟩)

theorem findSomeRev?_writes_eq_none_iff {pairs : List (String × α)} {key : String} :
    pairs.findSomeRev? (writes key) = none ↔ key ∉ pairs.map Prod.fst := by
  rw [List.findSomeRev?_eq_findSome?_reverse, List.findSome?_eq_none_iff]
  simp only [List.mem_reverse, writes, List.mem_map, not_exists, not_and]
  constructor
  · intro h pair hpair he
    exact absurd (h pair hpair) (by simp [he])
  · intro h pair hpair
    exact if_neg fun he => h pair hpair he.symm

def Increasing (t : Table α) : Prop := (keys t).Pairwise (· < ·)

theorem lt_of_ne_of_not_lt {a b : String} (hne : a ≠ b) (h : ¬ a < b) : b < a := by
  apply Classical.byContradiction
  intro hle
  exact hne (String.le_antisymm (String.not_lt.mp hle) (String.not_lt.mp h))

theorem mem_keys_insert {key k : String} {v : α} {t : Table α} :
    key ∈ keys (insert k v t) ↔ key = k ∨ key ∈ keys t := by
  induction t with
  | nil => simp [insert, keys]
  | cons entry t ih =>
    obtain ⟨k', v'⟩ := entry
    simp only [keys, insert, List.map_cons, List.mem_cons] at ih ⊢
    split
    · next he => simp [he]
    · split
      · simp
      · simp only [List.map_cons, List.mem_cons, ih]
        exact or_left_comm

theorem Increasing.insert {t : Table α} (h : Increasing t) (k : String) (v : α) :
    Increasing (insert k v t) := by
  induction t with
  | nil => exact List.pairwise_singleton _ k
  | cons entry t ih =>
    obtain ⟨k', v'⟩ := entry
    obtain ⟨hfirst, hrest⟩ := List.pairwise_cons.mp h
    rw [Table.insert]
    split
    · next he =>
      subst he
      exact h
    · next hne =>
      split
      · next hlt =>
        refine List.pairwise_cons.mpr ⟨?_, h⟩
        intro key hkey
        rcases List.mem_cons.mp hkey with rfl | hkey
        · exact hlt
        · exact String.lt_trans hlt (hfirst key hkey)
      · next hnot =>
        refine List.pairwise_cons.mpr ⟨?_, ih hrest⟩
        intro key hkey
        rcases mem_keys_insert.mp hkey with rfl | hkey
        · exact lt_of_ne_of_not_lt hne hnot
        · exact hfirst key hkey

theorem Increasing.insertAll {t : Table α} (h : Increasing t) (pairs : List (String × α)) :
    Increasing (t.insertAll pairs) := by
  induction pairs generalizing t with
  | nil => exact h
  | cons pair pairs ih => exact ih (h.insert pair.1 pair.2)

theorem increasing_ofPairs (pairs : List (String × α)) : Increasing (ofPairs pairs) := by
  apply Increasing.insertAll
  exact List.Pairwise.nil

theorem find?_eq_none_iff {key : String} {t : Table α} : find? key t = none ↔ key ∉ keys t := by
  induction t with
  | nil => simp [find?, keys]
  | cons entry t ih =>
    obtain ⟨k, v⟩ := entry
    by_cases h : key = k
    · simp [find?, keys, h]
    · simpa [find?, keys, h] using ih

theorem Increasing.mem_iff {t : Table α} (h : Increasing t) {key : String} {v : α} :
    (key, v) ∈ t ↔ find? key t = some v := by
  induction t with
  | nil => simp [find?]
  | cons entry t ih =>
    obtain ⟨k, w⟩ := entry
    obtain ⟨hfirst, hrest⟩ := List.pairwise_cons.mp h
    by_cases hk : key = k
    · subst hk
      have hlater : (key, v) ∉ t := fun hmem =>
        String.lt_irrefl key (hfirst key (List.mem_map_of_mem hmem))
      simp [find?, hlater, eq_comm]
    · simpa [find?, hk] using ih hrest

theorem Increasing.nodup_keys {t : Table α} (h : Increasing t) : (keys t).Nodup := by
  refine List.Pairwise.imp ?_ h
  rintro a b hlt rfl
  exact String.lt_irrefl a hlt

/-- What is read under each key determines the table. -/
theorem Increasing.ext {t t' : Table α} (h : Increasing t) (h' : Increasing t')
    (hread : ∀ key, find? key t = find? key t') : t = t' := by
  have hsame : t.Perm t' := by
    apply (List.perm_ext_iff_of_nodup h.nodup_keys.of_map h'.nodup_keys.of_map).mpr
    rintro ⟨key, v⟩
    rw [h.mem_iff, h'.mem_iff, hread]
  have hpairs : t.Pairwise fun p q => p.1 < q.1 := List.pairwise_map.mp h
  have hpairs' : t'.Pairwise fun p q => p.1 < q.1 := List.pairwise_map.mp h'
  apply hsame.eq_of_pairwise _ hpairs hpairs'
  intro p q _ _ hpq hqp
  exact absurd (String.lt_trans hpq hqp) (String.lt_irrefl p.1)

theorem find?_ofPairs (key : String) (pairs : List (String × α)) :
    find? key (ofPairs pairs) = pairs.findSomeRev? (writes key) := by
  rw [ofPairs, find?_insertAll, find?, Option.or_none]

theorem mem_keys_ofPairs {key : String} {pairs : List (String × α)} :
    key ∈ keys (ofPairs pairs) ↔ key ∈ pairs.map Prod.fst := by
  apply not_iff_not.mp
  rw [← find?_eq_none_iff, find?_ofPairs, findSomeRev?_writes_eq_none_iff]

theorem length_ofPairs (pairs : List (String × α)) :
    (ofPairs pairs).length = (pairs.map Prod.fst).dedup.length := by
  have hsame : (keys (ofPairs pairs)).Perm (pairs.map Prod.fst).dedup := by
    apply (List.perm_ext_iff_of_nodup (increasing_ofPairs pairs).nodup_keys
      (List.nodup_dedup _)).mpr
    intro key
    rw [mem_keys_ofPairs, List.mem_dedup]
  rw [← hsame.length_eq, keys, List.length_map]

end Table

end HostProbe
