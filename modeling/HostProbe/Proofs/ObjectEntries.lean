import HostProbe.Proofs.Table
import HostProbe.Value.Basic

/-!
A script object is determined by the latest value given for each key. However it was built, its
keys increase, so no trace is left of the order in which they came or of the values that were
written over, and two objects that show the same are the same object.

Filling an object at once and writing its keys one after another make no difference either:
sorting the pairs by key, equal keys in the order given, and keeping the last of each run of equal
keys gives the same entries.
-/

namespace HostProbe

namespace Table

variable {α : Type}

/-- Of neighbours with one key the last stays. -/
def lastOfRuns : List (String × α) → List (String × α)
  | [] => []
  | [pair] => [pair]
  | pair :: next :: l =>
    if pair.1 = next.1 then lastOfRuns (next :: l) else pair :: lastOfRuns (next :: l)

def keyLe (p q : String × α) : Bool := p.1 ≤ q.1

def SortedByKey (l : List (String × α)) : Prop := l.Pairwise fun p q => p.1 ≤ q.1

theorem keyLe_trans (p q r : String × α) (hpq : keyLe p q = true) (hqr : keyLe q r = true) :
    keyLe p r = true := by
  rw [keyLe, decide_eq_true_eq] at hpq hqr ⊢
  exact String.le_trans hpq hqr

theorem keyLe_total (p q : String × α) : (keyLe p q || keyLe q p) = true := by
  rw [keyLe, keyLe, Bool.or_eq_true, decide_eq_true_eq, decide_eq_true_eq]
  exact String.le_total p.1 q.1

theorem sortedByKey_mergeSort (pairs : List (String × α)) :
    SortedByKey (pairs.mergeSort keyLe) := by
  refine List.Pairwise.imp ?_ (List.pairwise_mergeSort keyLe_trans keyLe_total pairs)
  intro p q h
  exact of_decide_eq_true h

theorem lastOfRuns_subset (l : List (String × α)) : lastOfRuns l ⊆ l := by
  fun_induction lastOfRuns l with
  | case1 => exact List.Subset.refl []
  | case2 pair => exact List.Subset.refl [pair]
  | case3 pair next l he ih => exact List.subset_cons_of_subset pair ih
  | case4 pair next l hne ih => exact List.cons_subset_cons pair ih

/-- A key that differs from the next one is below all later ones. -/
theorem SortedByKey.head_lt {pair next : String × α} {l : List (String × α)}
    (h : SortedByKey (pair :: next :: l)) (hne : pair.1 ≠ next.1) :
    ∀ p ∈ next :: l, pair.1 < p.1 := by
  obtain ⟨hfirst, hrest⟩ := List.pairwise_cons.mp h
  intro p hp
  have hnext : next.1 ≤ p.1 := by
    rcases List.mem_cons.mp hp with rfl | hp
    · exact String.le_refl p.1
    · exact (List.pairwise_cons.mp hrest).1 p hp
  apply lt_of_ne_of_not_lt _ (String.not_lt.mpr (hfirst p hp))
  intro he
  exact hne (String.le_antisymm (hfirst next List.mem_cons_self) (he ▸ hnext))

theorem SortedByKey.increasing_lastOfRuns {l : List (String × α)} (h : SortedByKey l) :
    Increasing (lastOfRuns l) := by
  fun_induction lastOfRuns l with
  | case1 => exact List.Pairwise.nil
  | case2 pair => exact List.pairwise_singleton _ pair.1
  | case3 pair next l he ih => exact ih (List.pairwise_cons.mp h).2
  | case4 pair next l hne ih =>
    refine List.pairwise_cons.mpr ⟨?_, ih (List.pairwise_cons.mp h).2⟩
    intro key hkey
    obtain ⟨p, hp, rfl⟩ := List.mem_map.mp hkey
    exact h.head_lt hne p (lastOfRuns_subset _ hp)

theorem SortedByKey.find?_lastOfRuns {l : List (String × α)} (h : SortedByKey l) (key : String) :
    find? key (lastOfRuns l) = l.findSomeRev? (writes key) := by
  fun_induction lastOfRuns l with
  | case1 => rfl
  | case2 pair => rfl
  | case3 pair next l he ih =>
    rw [ih (List.pairwise_cons.mp h).2, findSomeRev?_cons _ pair]
    -- where the first pair would count, the second has the same key and counts before it
    cases hlater : (next :: l).findSomeRev? (writes key) with
    | some v => rfl
    | none =>
      have hkey := findSomeRev?_writes_eq_none_iff.mp hlater
      have hother : key ≠ pair.1 := fun hk => hkey (by simp [hk, he])
      simp [writes, hother]
  | case4 pair next l hne ih =>
    rw [find?, ih (List.pairwise_cons.mp h).2, findSomeRev?_cons _ pair]
    by_cases hk : key = pair.1
    · have hlater : (next :: l).findSomeRev? (writes key) = none := by
        apply findSomeRev?_writes_eq_none_iff.mpr
        intro hmem
        obtain ⟨p, hp, hpk⟩ := List.mem_map.mp hmem
        have hlt := h.head_lt hne p hp
        rw [hpk, hk] at hlt
        exact String.lt_irrefl pair.1 hlt
      rw [if_pos hk, hlater, writes, if_pos hk, Option.none_or]
    · rw [if_neg hk, writes, if_neg hk, Option.or_none]

theorem filter_mergeSort (pairs : List (String × α)) (key : String) :
    (pairs.mergeSort keyLe).filter (fun p => key = p.1) = pairs.filter fun p => key = p.1 := by
  have hequal : (pairs.filter fun p => key = p.1).Pairwise fun p q => keyLe p q := by
    apply List.pairwise_of_forall_mem_list
    intro p hp q hq
    have hp : key = p.1 := by simpa using (List.mem_filter.mp hp).2
    have hq : key = q.1 := by simpa using (List.mem_filter.mp hq).2
    rw [keyLe, ← hp, ← hq]
    exact decide_eq_true (String.le_refl key)
  have hkept := List.sublist_mergeSort keyLe_trans keyLe_total hequal List.filter_sublist
  have hsame := ((List.mergeSort_perm pairs keyLe).filter fun p => key = p.1).length_eq
  have hfiltered := hkept.filter fun p => key = p.1
  rw [List.filter_filter] at hfiltered
  simp only [Bool.and_self] at hfiltered
  exact (hfiltered.eq_of_length hsame.symm).symm

theorem findSomeRev?_writes_filter (pairs : List (String × α)) (key : String) :
    (pairs.filter fun p => key = p.1).findSomeRev? (writes key) =
      pairs.findSomeRev? (writes key) := by
  rw [← List.filterMap_eq_filter, findSomeRev?_filterMap]
  congr 1
  funext p
  by_cases h : key = p.1 <;> simp [writes, Option.guard, h]

/-- Sorting keeps pairs of one key in their order, so the last of them stays the last. -/
theorem findSomeRev?_writes_mergeSort (pairs : List (String × α)) (key : String) :
    (pairs.mergeSort keyLe).findSomeRev? (writes key) = pairs.findSomeRev? (writes key) := by
  rw [← findSomeRev?_writes_filter, filter_mergeSort, findSomeRev?_writes_filter]

theorem lastOfRuns_mergeSort (pairs : List (String × α)) :
    lastOfRuns (pairs.mergeSort keyLe) = ofPairs pairs := by
  have hsorted := sortedByKey_mergeSort pairs
  apply hsorted.increasing_lastOfRuns.ext (increasing_ofPairs pairs)
  intro key
  rw [hsorted.find?_lastOfRuns, findSomeRev?_writes_mergeSort, find?_ofPairs]

end Table

namespace Value

mutual

theorem same_iff : ∀ v w : Value, same v w = true ↔ v = w
  | null, w => by cases w <;> simp [same]
  | int n, w => by cases w <;> simp [same]
  | array items attributes, w => by
    cases w with
    | array items' attributes' =>
      simp [same, sameItems_iff items items', sameEntries_iff attributes attributes']
    | _ => simp [same]
  | object entries, w => by
    cases w with
    | object entries' => simp [same, sameEntries_iff entries entries']
    | _ => simp [same]

theorem sameItems_iff : ∀ l m : List Value, sameItems l m = true ↔ l = m
  | [], m => by cases m <;> simp [sameItems]
  | v :: l, m => by
    cases m with
    | nil => simp [sameItems]
    | cons w m => simp [sameItems, same_iff v w, sameItems_iff l m]

theorem sameEntries_iff : ∀ l m : List (String × Value), sameEntries l m = true ↔ l = m
  | [], m => by cases m <;> simp [sameEntries]
  | (k, v) :: l, m => by
    cases m with
    | nil => simp [sameEntries]
    | cons entry m =>
      obtain ⟨k', w⟩ := entry
      simp [sameEntries, same_iff v w, sameEntries_iff l m, and_assoc]

end

end Value

namespace ScriptObject

def setAll (o : ScriptObject) (pairs : List (String × Value)) : ScriptObject :=
  pairs.foldl (fun o pair => o.set pair.1 pair.2) o

theorem setAll_eq (o : ScriptObject) (pairs : List (String × Value)) :
    o.setAll pairs = ⟨o.entries.insertAll pairs⟩ := by
  induction pairs generalizing o with
  | nil => rfl
  | cons pair pairs ih => exact ih (o.set pair.1 pair.2)

theorem ofPairs_eq_setAll (pairs : List (String × Value)) : ofPairs pairs = empty.setAll pairs :=
  (setAll_eq empty pairs).symm

/-- Writing after filling is filling with more. -/
theorem setAll_ofPairs (pairs sets : List (String × Value)) :
    (ofPairs pairs).setAll sets = ofPairs (pairs ++ sets) := by
  rw [ofPairs_eq_setAll, ofPairs_eq_setAll, setAll, setAll, setAll, List.foldl_append]

theorem get_ofPairs (pairs : List (String × Value)) (key : String) :
    (ofPairs pairs).get key = (pairs.findSomeRev? (Table.writes key)).getD .null := by
  rw [get, ofPairs, Table.find?_ofPairs]

theorem get_ofPairs_latest {pairs before after : List (String × Value)} {key : String} {v : Value}
    (hpairs : pairs = before ++ (key, v) :: after) (hlast : key ∉ after.map Prod.fst) :
    (ofPairs pairs).get key = v := by
  rw [get_ofPairs, Table.findSomeRev?_writes_latest hpairs hlast, Option.getD_some]

theorem get_ofPairs_missing {pairs : List (String × Value)} {key : String}
    (h : key ∉ pairs.map Prod.fst) : (ofPairs pairs).get key = .null := by
  rw [get_ofPairs, Table.findSomeRev?_writes_eq_none_iff.mpr h, Option.getD_none]

/-- A null that was given and a missing key read alike; the keys tell them apart. -/
theorem find?_eq_of_get_eq {o o' : ScriptObject} {key : String}
    (hkeys : key ∈ o.keys ↔ key ∈ o'.keys) (hget : key ∈ o.keys → o.get key = o'.get key) :
    Table.find? key o.entries = Table.find? key o'.entries := by
  by_cases h : key ∈ o.keys
  · have hfound : Table.find? key o.entries ≠ none := fun hn => Table.find?_eq_none_iff.mp hn h
    have hfound' : Table.find? key o'.entries ≠ none := fun hn =>
      Table.find?_eq_none_iff.mp hn (hkeys.mp h)
    obtain ⟨v, hv⟩ := Option.ne_none_iff_exists'.mp hfound
    obtain ⟨v', hv'⟩ := Option.ne_none_iff_exists'.mp hfound'
    have hsame := hget h
    rw [get, get, hv, hv', Option.getD_some, Option.getD_some] at hsame
    rw [hv, hv', hsame]
  · rw [Table.find?_eq_none_iff.mpr h, Table.find?_eq_none_iff.mpr fun h' => h (hkeys.mpr h')]

theorem ofPairs_eq_iff (pairs pairs' : List (String × Value)) :
    ofPairs pairs = ofPairs pairs' ↔
      (∀ key, key ∈ (ofPairs pairs).keys ↔ key ∈ (ofPairs pairs').keys) ∧
      ∀ key ∈ (ofPairs pairs).keys, (ofPairs pairs).get key = (ofPairs pairs').get key := by
  constructor
  · intro h
    rw [h]
    exact ⟨fun key => Iff.rfl, fun key _ => rfl⟩
  · rintro ⟨hkeys, hget⟩
    have hentries : Table.ofPairs pairs = Table.ofPairs pairs' := by
      apply (Table.increasing_ofPairs pairs).ext (Table.increasing_ofPairs pairs')
      intro key
      exact find?_eq_of_get_eq (hkeys key) (hget key)
    rw [ofPairs, ofPairs, hentries]

theorem toValue_same_iff (o o' : ScriptObject) : o.toValue.same o'.toValue = true ↔ o = o' := by
  rw [Value.same_iff, toValue, toValue, Value.object.injEq, ScriptObject.mk.injEq]

theorem set_comm {o : ScriptObject} (ho : o.entries.Increasing) {k k' : String} (hne : k ≠ k')
    (v v' : Value) : (o.set k v).set k' v' = (o.set k' v').set k v := by
  have hentries : Table.insert k' v' (Table.insert k v o.entries) =
      Table.insert k v (Table.insert k' v' o.entries) := by
    apply ((ho.insert k v).insert k' v').ext ((ho.insert k' v').insert k v)
    intro key
    simp only [Table.find?_insert, Table.writes]
    by_cases hk : key = k
    · simp [hk, hne]
    · simp [hk]
  exact congrArg ScriptObject.mk hentries

/-- What an object is that was filled with pairs and then written to, in terms of all that was
given for its keys. Its keys stand in the order of their code points, each once, whatever they are
called; a key has the latest value given for it. Filling is the same as writing from the empty
object on, and as sorting with the last of each run kept. Equality is having the same keys with
equal values, so writes to different keys may change places. -/
theorem object_shows_latest_values (pairs sets : List (String × Value)) :
    let given := pairs ++ sets
    let o := (ofPairs pairs).setAll sets
    o.keys.Pairwise (· < ·) ∧
    (∀ key, key ∈ o.keys ↔ key ∈ given.map Prod.fst) ∧
    o.length = (given.map Prod.fst).dedup.length ∧
    (∀ before key v after, given = before ++ (key, v) :: after → key ∉ after.map Prod.fst →
      o.get key = v) ∧
    (∀ key, key ∉ given.map Prod.fst → o.get key = .null) ∧
    ofPairs pairs = empty.setAll pairs ∧
    (ofPairs pairs).entries = Table.lastOfRuns (pairs.mergeSort Table.keyLe) ∧
    (∀ pairs' sets',
      let o' := (ofPairs pairs').setAll sets'
      (o.toValue.same o'.toValue = true ↔ o = o') ∧
      (o = o' ↔ (∀ key, key ∈ o.keys ↔ key ∈ o'.keys) ∧
        ∀ key ∈ o.keys, o.get key = o'.get key)) ∧
    ∀ k v k' v', k ≠ k' → (o.set k v).set k' v' = (o.set k' v').set k v := by
  intro given o
  have ho : o = ofPairs given := setAll_ofPairs pairs sets
  have hincreasing : o.entries.Increasing := by
    rw [ho]
    exact Table.increasing_ofPairs given
  refine ⟨hincreasing, ?_, ?_, ?_, ?_, ofPairs_eq_setAll pairs,
    (Table.lastOfRuns_mergeSort pairs).symm, ?_, ?_⟩
  · intro key
    rw [ho]
    exact Table.mem_keys_ofPairs
  · rw [ho]
    exact Table.length_ofPairs given
  · intro before key v after hgiven hlast
    rw [ho]
    exact get_ofPairs_latest hgiven hlast
  · intro key hkey
    rw [ho]
    exact get_ofPairs_missing hkey
  · intro pairs' sets' o'
    have ho' : o' = ofPairs (pairs' ++ sets') := setAll_ofPairs pairs' sets'
    refine ⟨toValue_same_iff o o', ?_⟩
    rw [ho, ho']
    exact ofPairs_eq_iff given (pairs' ++ sets')
  · intro k v k' v' hne
    exact set_comm hincreasing hne v v'

/-- A key called length is a key like any other, also when it is written again with null; the
pairs come out of order and one of them is a duplicate. -/
theorem object_shows_latest_values_length_key :
    let pairs : List (String × Value) := [("x", .int 1), ("length", .int 42), ("x", .int 2)]
    let o := (ofPairs pairs).setAll [("ж", .int 7), ("length", .null)]
    o.length = 3 ∧ o.get "x" = .int 2 ∧ o.get "length" = .null ∧ o.get "y" = .null ∧
      (o.set "y" (.int 3)).set "a" .null = (o.set "a" .null).set "y" (.int 3) := by
  intro pairs o
  obtain ⟨_, _, hlength, hlatest, hmissing, _, _, _, hcomm⟩ :=
    object_shows_latest_values pairs [("ж", .int 7), ("length", .null)]
  exact ⟨hlength.trans (by decide), hlatest (pairs.take 2) "x" _ _ rfl (by decide),
    hlatest (pairs ++ [("ж", .int 7)]) "length" _ [] rfl (by decide), hmissing "y" (by decide),
    hcomm "y" _ "a" _ (by decide)⟩

end ScriptObject

end HostProbe
