import HostProbe.Proofs.Table
import HostProbe.Value.Step
import Mathlib.Data.List.DropRight

/-!
What a script array shows is a function of its history. The length is counted step by step; a slot
holds what the latest step that made it anew put there; an attribute holds what was set since the
latest `pop`. Only the steps on the array itself count: the steps of a `pushFrom` argument run on
a copy, to any depth, and all that is left of them is the one value that is pushed.
-/

namespace HostProbe

namespace ScriptArray

@[simp] theorem len_push (a : ScriptArray) (v : Value) : (a.push v).len = a.len + 1 := by
  simp [push, len]

@[simp] theorem len_pop (a : ScriptArray) : a.pop.2.len = a.len - 1 := by
  simp [pop, len]

@[simp] theorem len_setLen (a : ScriptArray) (n : Nat) : (a.setLen n).len = n := by
  simp only [setLen, len, List.length_append, List.length_take, List.length_replicate]
  omega

theorem get?_eq_none_iff (a : ScriptArray) (i : Nat) : a.get? i = none ↔ a.len ≤ i :=
  List.getElem?_eq_none_iff

theorem get?_push (a : ScriptArray) (v : Value) {i : Nat} (h : i < a.len + 1) :
    (a.push v).get? i = if i = a.len then some v else a.get? i := by
  split
  · next he =>
    subst he
    exact List.getElem?_concat_length
  · next hne =>
    simp only [len] at h hne
    exact List.getElem?_append_left (by omega)

theorem get?_pop (a : ScriptArray) {i : Nat} (h : i < a.len - 1) : a.pop.2.get? i = a.get? i := by
  simp only [pop, get?, len] at h ⊢
  rw [List.getElem?_dropLast, if_pos h]

theorem get?_setLen (a : ScriptArray) {n i : Nat} (h : i < n) :
    (a.setLen n).get? i = if a.len ≤ i then some .null else a.get? i := by
  split
  · next hnew =>
    simp only [setLen, get?, len] at hnew ⊢
    rw [List.getElem?_append_right (by rw [List.length_take]; omega), List.getElem?_replicate,
      List.length_take, if_pos (by omega)]
  · next hold =>
    simp only [setLen, get?, len] at hold ⊢
    rw [List.getElem?_append_left (by rw [List.length_take]; omega), List.getElem?_take, if_pos h]

theorem attr_setAttr (a : ScriptArray) (key name : String) (v : Value) :
    (a.setAttr key v).attr name = if name = key then v else a.attr name := by
  simp only [setAttr, attr, Table.find?_insert, Table.writes]
  split
  · rfl
  · rfl

end ScriptArray

namespace ArrayStep

def after (a : ScriptArray) (steps : List ArrayStep) : ScriptArray :=
  steps.foldl (fun a step => (step.run a).2) a

/-- The value a list of steps yields: that of the last one, and null if there is none. -/
def yieldedBy (a : ScriptArray) (steps : List ArrayStep) : Value :=
  (((runAll steps a).getLast?.map Prod.fst).getD .nothing).yielded

def moments (a : ScriptArray) : List ArrayStep → List (ScriptArray × ArrayStep)
  | [] => []
  | step :: steps => (a, step) :: moments (step.run a).2 steps

def nextLength (n : Nat) : ArrayStep → Nat
  | .push _ => n + 1
  | .pushFrom _ => n + 1
  | .pop => n - 1
  | .setLen m => m
  | _ => n

/-- What a step puts into slot `i`, if the slot is new. -/
def created (i : Nat) : ScriptArray × ArrayStep → Option Value
  | (a, .push v) => if i = a.len then some v else none
  | (a, .pushFrom argument) => if i = a.len then some (yieldedBy a argument) else none
  | (a, .setLen n) => if a.len ≤ i ∧ i < n then some .null else none
  | _ => none

def isPop : ArrayStep → Bool
  | .pop => true
  | _ => false

def attributeSet (name : String) : ArrayStep → Option Value
  | .setAttr key v => if name = key then some v else none
  | _ => none

/-- The steps after the latest `pop`; all steps if there is none. -/
def sincePop (steps : List ArrayStep) : List ArrayStep :=
  steps.rtakeWhile fun step => !step.isPop

theorem after_concat (a : ScriptArray) (steps : List ArrayStep) (step : ArrayStep) :
    after a (steps ++ [step]) = (step.run (after a steps)).2 := by
  simp only [after, List.foldl_append, List.foldl_cons, List.foldl_nil]

theorem after_append (a : ScriptArray) (before rest : List ArrayStep) :
    after a (before ++ rest) = after (after a before) rest := by
  simp only [after, List.foldl_append]

theorem moments_concat (a : ScriptArray) (steps : List ArrayStep) (step : ArrayStep) :
    moments a (steps ++ [step]) = moments a steps ++ [(after a steps, step)] := by
  induction steps generalizing a with
  | nil => rfl
  | cons first steps ih => exact congrArg ((a, first) :: ·) (ih (first.run a).2)

theorem runAll_concat (a : ScriptArray) (steps : List ArrayStep) (step : ArrayStep) :
    runAll (steps ++ [step]) a = runAll steps a ++ [step.run (after a steps)] := by
  induction steps generalizing a with
  | nil => rfl
  | cons first steps ih => exact congrArg (first.run a :: ·) (ih (first.run a).2)

/-- The argument of a `pushFrom` yields what its last step reads after the others. -/
theorem yieldedBy_concat (a : ScriptArray) (steps : List ArrayStep) (last : ArrayStep) :
    yieldedBy a (steps ++ [last]) = (last.run (after a steps)).1.yielded := by
  rw [yieldedBy, runAll_concat, List.getLast?_append]
  rfl

theorem len_run (step : ArrayStep) (a : ScriptArray) :
    (step.run a).2.len = nextLength a.len step := by
  cases step with
  | push v => exact a.len_push v
  | pushFrom argument => exact a.len_push (yieldedBy a argument)
  | pop => exact a.len_pop
  | setLen n => exact a.len_setLen n
  | _ => rfl

theorem get?_run (step : ArrayStep) (a : ScriptArray) {i : Nat} (h : i < (step.run a).2.len) :
    (step.run a).2.get? i = (created i (a, step)).or (a.get? i) := by
  rw [len_run] at h
  cases step with
  | push v =>
    refine (a.get?_push v h).trans ?_
    by_cases he : i = a.len <;> simp [created, he]
  | pushFrom argument =>
    refine (a.get?_push (yieldedBy a argument) h).trans ?_
    by_cases he : i = a.len <;> simp [created, he]
  | pop => exact a.get?_pop h
  | setLen n =>
    have hn : i < n := h
    refine (a.get?_setLen hn).trans ?_
    by_cases hle : a.len ≤ i <;> simp [created, hle, hn]
  | _ => rfl

/-- A slot that is there after a step was there before it, unless the step made it. -/
theorem lt_len_of_created_eq_none (step : ArrayStep) (a : ScriptArray) {i : Nat}
    (h : i < (step.run a).2.len) (hnew : created i (a, step) = none) : i < a.len := by
  rw [len_run] at h
  cases step with
  | push v =>
    have hne : i ≠ a.len := by simpa [created] using hnew
    simp only [nextLength] at h
    omega
  | pushFrom argument =>
    have hne : i ≠ a.len := by simpa [created] using hnew
    simp only [nextLength] at h
    omega
  | pop =>
    simp only [nextLength] at h
    omega
  | setLen n =>
    have hgrown : ¬ (a.len ≤ i ∧ i < n) := by simpa [created] using hnew
    simp only [nextLength] at h
    omega
  | _ => exact h

theorem attr_run (step : ArrayStep) (a : ScriptArray) (name : String) :
    (step.run a).2.attr name =
      if step.isPop then .null else (attributeSet name step).getD (a.attr name) := by
  cases step with
  | setAttr key v =>
    refine (a.attr_setAttr key name v).trans ?_
    by_cases h : name = key <;> simp [attributeSet, isPop, h]
  | _ => rfl

theorem len_after (a : ScriptArray) (steps : List ArrayStep) :
    (after a steps).len = steps.foldl nextLength a.len := by
  induction steps generalizing a with
  | nil => rfl
  | cons step steps ih =>
    rw [List.foldl_cons, ← len_run]
    exact ih (step.run a).2

theorem get?_after (a : ScriptArray) (steps : List ArrayStep) {i : Nat}
    (h : i < (after a steps).len) :
    (after a steps).get? i = ((moments a steps).findSomeRev? (created i)).or (a.get? i) := by
  induction steps using List.reverseRecOn with
  | nil => rfl
  | append_singleton steps step ih =>
    rw [after_concat] at h
    rw [after_concat, moments_concat, findSomeRev?_concat, get?_run step _ h]
    -- the earlier steps are only asked about a slot that was there before the last one
    cases hnew : created i (after a steps, step) with
    | some v => rfl
    | none => rw [Option.none_or, Option.none_or, ih (lt_len_of_created_eq_none step _ h hnew)]

theorem attr_after (a : ScriptArray) (steps : List ArrayStep) (name : String) :
    (after a steps).attr name = ((sincePop steps).findSomeRev? (attributeSet name)).getD
      (if steps.any isPop then .null else a.attr name) := by
  induction steps using List.reverseRecOn with
  | nil => rfl
  | append_singleton steps step ih =>
    rw [after_concat, attr_run, sincePop, List.rtakeWhile_concat]
    cases hpop : step.isPop with
    | true => simp [hpop]
    | false =>
      simp only [Bool.not_false, if_true, Bool.false_eq_true, if_false]
      rw [findSomeRev?_concat, ih]
      cases attributeSet name step <;> simp [hpop, sincePop]

/-- A slot that is absent at some time shows, if it is there later, what was put there since. -/
theorem get?_after_absent (a : ScriptArray) (steps : List ArrayStep) {i : Nat} (habsent : a.len ≤ i)
    (h : i < (after a steps).len) :
    ∃ v, (moments a steps).findSomeRev? (created i) = some v ∧ (after a steps).get? i = some v := by
  have hread := get?_after a steps h
  rw [(a.get?_eq_none_iff i).mpr habsent, Option.or_none] at hread
  cases hv : (after a steps).get? i with
  | none =>
    have hle := ((after a steps).get?_eq_none_iff i).mp hv
    omega
  | some v => exact ⟨v, hread.symm.trans hv, rfl⟩

theorem after_pushFrom (a : ScriptArray) (before argument rest : List ArrayStep) :
    after a (before ++ .pushFrom argument :: rest) =
      after a (before ++ .push (yieldedBy (after a before) argument) :: rest) := by
  -- running a `pushFrom` is by definition a push of the yielded value
  rw [after_append, after_append]
  rfl

/-- The history law of script arrays, for every start and every list of steps. The length counts
the steps; a slot is absent from the length on and holds below it what the latest step that made it
put there, so nothing comes back once it is cut off; an attribute holds what was set since the
latest `pop`. A `pushFrom` is the push of what its argument yields, and that is what the last step
of the argument reads after the others ran on the copy. -/
theorem array_history_law (a : ScriptArray) (steps : List ArrayStep) :
    let final := after a steps
    final.len = steps.foldl nextLength a.len ∧
    (∀ i, final.get? i = none ↔ final.len ≤ i) ∧
    (∀ i, i < final.len →
      final.get? i = ((moments a steps).findSomeRev? (created i)).or (a.get? i)) ∧
    (∀ i before rest, steps = before ++ rest → (after a before).len ≤ i → i < final.len →
      ∃ v, (moments (after a before) rest).findSomeRev? (created i) = some v ∧
        final.get? i = some v) ∧
    (∀ name, final.attr name = ((sincePop steps).findSomeRev? (attributeSet name)).getD
      (if steps.any isPop then .null else a.attr name)) ∧
    (∀ before argument rest, steps = before ++ .pushFrom argument :: rest →
      final = after a (before ++ .push (yieldedBy (after a before) argument) :: rest)) ∧
    ∀ b inner last, yieldedBy b (inner ++ [last]) = (last.run (after b inner)).1.yielded := by
  refine ⟨len_after a steps, (after a steps).get?_eq_none_iff, fun i => get?_after a steps, ?_,
    attr_after a steps, ?_, yieldedBy_concat⟩
  · rintro i before rest rfl hcut h
    rw [after_append] at h ⊢
    exact get?_after_absent (after a before) rest hcut h
  · rintro before argument rest rfl
    exact after_pushFrom a before argument rest

/-- The second slot is cut off and comes back with the pushed value; the argument clears its copy
of the array, and neither the first slot nor the attribute feels it. -/
theorem array_history_law_cut_slot :
    let a : ScriptArray := ⟨[.int 1, .int 2], [("k", .int 5)]⟩
    let argument : List ArrayStep :=
      [.pop, .setAttr "k" (.int 8), .pushFrom [.self], .value (.int 9)]
    let final := after a [.setLen 1, .pushFrom argument]
    (after a [.setLen 1]).len ≤ 1 ∧ 1 < final.len ∧ final.get? 1 = some (.int 9) ∧
      final.get? 0 = some (.int 1) ∧ final.attr "k" = .int 5 ∧
      final = after a [.setLen 1, .push (.int 9)] := by
  intro a argument final
  have hcut : (after a [.setLen 1]).len ≤ 1 := by decide
  have hback : 1 < final.len := by decide
  obtain ⟨_, _, hslot, hanew, hattr, hpush, _⟩ :=
    array_history_law a [.setLen 1, .pushFrom argument]
  obtain ⟨v, hput, hget⟩ := hanew 1 [.setLen 1] [.pushFrom argument] rfl hcut hback
  have hv : v = .int 9 := Option.some.inj (hput.symm.trans rfl)
  rw [hv] at hget
  exact ⟨hcut, hback, hget, hslot 0 (by decide), hattr "k", hpush [.setLen 1] argument [] rfl⟩

end ArrayStep

end HostProbe
