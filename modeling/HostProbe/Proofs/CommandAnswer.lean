import HostProbe.Capacity.Prober
import HostProbe.Command.Attempt
import HostProbe.Proofs.Dialogue
import HostProbe.Proofs.SpecRoundTrip

/-!
When an external host answers. Every refusal by the operating system before a program has started
is a rejection; once it has started, the one thing that keeps the host from answering is a
deadline that the clock cannot show. Timeouts that large are not refused when a spec is loaded.
-/

namespace HostProbe.Command

/-- The program is started for a script. -/
def Spec.Starts (h : Spec) (m : Machine) (code : String) (child : Child) : Prop :=
  ∃ path, m.createFile = .ok path ∧ m.writeFile = .ok () ∧ m.flushFile = .ok () ∧
    m.spawn (h.launch code path) = .ok child

/-- The program is started, and its deadline is no instant of the clock. -/
def Spec.Overflows (h : Spec) (m : Machine) (code : String) : Prop :=
  ∃ child timeout, h.Starts m code child ∧ h.timeout = some timeout ∧
    maxSeconds < child.started / second + timeout

theorem Spec.attempt_cases (h : Spec) (m : Machine) (code : String) :
    (∃ child, h.Starts m code child ∧
      (h.attempt m code).answer = (child.attempt h.timeout).answer ∧
      (h.attempt m code).killed = (child.attempt h.timeout).killed) ∨
    (∀ child, ¬ h.Starts m code child) ∧ (h.attempt m code).answer = .ok false ∧
      (h.attempt m code).killed = false := by
  rw [Spec.attempt]
  cases hcreate : m.createFile with
  | error e =>
    refine Or.inr ⟨?_, rfl, rfl⟩
    rintro child ⟨path, hpath, -⟩
    rw [hcreate] at hpath
    cases hpath
  | ok path =>
    cases hwrite : m.writeFile with
    | error e =>
      refine Or.inr ⟨?_, rfl, rfl⟩
      rintro child ⟨_, -, hok, -⟩
      rw [hwrite] at hok
      cases hok
    | ok _ =>
      cases hflush : m.flushFile with
      | error e =>
        refine Or.inr ⟨?_, rfl, rfl⟩
        rintro child ⟨_, -, -, hok, -⟩
        rw [hflush] at hok
        cases hok
      | ok _ =>
        cases hspawn : m.spawn (h.launch code path) with
        | error e =>
          refine Or.inr ⟨?_, by simp [hspawn, failure], by simp [hspawn, failure]⟩
          rintro child ⟨path', hpath, -, -, hok⟩
          rw [hcreate] at hpath
          obtain rfl := Except.ok.inj hpath
          rw [hspawn] at hok
          cases hok
        | ok child =>
          have hstarts : h.Starts m code child := ⟨path, hcreate, hwrite, hflush, hspawn⟩
          exact Or.inl ⟨child, hstarts, by simp [hspawn], by simp [hspawn]⟩

theorem Spec.Starts.unique {h : Spec} {m : Machine} {code : String} {child other : Child}
    (hchild : h.Starts m code child) (hother : h.Starts m code other) : child = other := by
  obtain ⟨path, hpath, -, -, hspawn⟩ := hchild
  obtain ⟨path', hpath', -, -, hspawn'⟩ := hother
  obtain rfl := Except.ok.inj (hpath.symm.trans hpath')
  exact Except.ok.inj (hspawn.symm.trans hspawn')

theorem deadline_eq_error_iff {started timeout : Nat} {e : Fault} :
    deadline started timeout = .error e ↔ maxSeconds < started / second + timeout := by
  cases e
  rw [deadline]
  split
  · next h => simpa using h
  · next h => simpa using h

/-- A started program is answered for, unless its deadline is no instant. -/
theorem Child.attempt_eq_error_iff (c : Child) (timeout : Option Nat) (e : Fault) :
    (c.attempt timeout).answer = .error e ↔
      ∃ t, timeout = some t ∧ maxSeconds < c.started / second + t := by
  have hending : (c.attempt timeout).answer = .error e ↔ c.ending timeout = .error e := by
    rw [Child.attempt]
    split
    all_goals next h => simp [h, failure]
  rw [hending]
  cases timeout with
  | none => simp [Child.ending]
  | some t =>
    simp only [Option.some.injEq, exists_eq_left', ← deadline_eq_error_iff (e := e), Child.ending]
    cases deadline c.started t <;> simp

theorem Spec.attempt_eq_error_iff (h : Spec) (m : Machine) (code : String) (e : Fault) :
    (h.attempt m code).answer = .error e ↔ h.Overflows m code := by
  rcases h.attempt_cases m code with ⟨child, hstarts, hanswer, -⟩ | ⟨hnone, hanswer, -⟩
  · rw [hanswer, Child.attempt_eq_error_iff]
    constructor
    · rintro ⟨t, ht, hover⟩
      exact ⟨child, t, hstarts, ht, hover⟩
    · rintro ⟨other, t, hother, ht, hover⟩
      obtain rfl := hstarts.unique hother
      exact ⟨t, ht, hover⟩
  · rw [hanswer]
    constructor
    · intro hfalse
      cases hfalse
    · rintro ⟨child, -, hstarts, -⟩
      exact absurd hstarts (hnone child)

theorem Spec.execute_eq_error_iff (h : Spec) (machine : Nat → Machine) (k : Nat) (code : String)
    (e : Fault) : (h.host machine).execute k code = .error e ↔ h.Overflows (machine k) code := by
  rw [← h.attempt_eq_error_iff (machine k) code e, Spec.host]
  cases hanswer : (h.attempt (machine k) code).answer <;> simp [hanswer]

theorem exists_ok_iff {ε α : Type} {x : Except ε α} : (∃ a, x = .ok a) ↔ ∀ e, x ≠ .error e := by
  cases x <;> simp

theorem Spec.probe_eq_error_iff (h : Spec) (p : Capacity.Prober) (machine : Nat → Machine)
    (e : Fault) : (p.probe (h.host machine) 0).result = .error e ↔
      ∃ script, p.dialogue.next ((p.probe (h.host machine) 0).calls.map Call.accepted) =
        some script ∧ h.Overflows (machine (p.probe (h.host machine) 0).state) script := by
  simp only [← h.execute_eq_error_iff machine _ _ e]
  exact Dialogue.play_eq_error_iff (h.host machine) p.dialogue 0 e

/-- An external host answers exactly when the deadline of the started program, if there is one, is
an instant of the clock. A probe ends with a report exactly when that holds for what is asked
next, if anything is. -/
theorem Spec.answers_iff_deadline (h : Spec) :
    (∀ m code, (∃ b, (h.attempt m code).answer = .ok b) ↔ ¬ h.Overflows m code) ∧
      ∀ (p : Capacity.Prober) (machine : Nat → Machine),
        let run := p.probe (h.host machine) 0
        (∃ r, run.result = .ok r) ↔
          ∀ script, p.dialogue.next (run.calls.map Call.accepted) = some script →
            ¬ h.Overflows (machine run.state) script := by
  constructor
  · intro m code
    rw [exists_ok_iff]
    constructor
    · intro hok hover
      exact hok .deadlineOverflow ((h.attempt_eq_error_iff m code _).mpr hover)
    · intro hover e herror
      exact hover ((h.attempt_eq_error_iff m code e).mp herror)
  · intro p machine run
    rw [exists_ok_iff]
    constructor
    · intro hok script hnext hover
      exact hok .deadlineOverflow ((h.probe_eq_error_iff p machine _).mpr ⟨script, hnext, hover⟩)
    · intro hsafe e herror
      obtain ⟨script, hnext, hover⟩ := (h.probe_eq_error_iff p machine e).mp herror
      exact hsafe script hnext hover

theorem Spec.answers_iff_deadline_five_seconds :
    let h : Spec := ⟨"true", [], false, some 5⟩
    let child : Child := ⟨.ok (), .ok (.exited 0), 1000 * second, [], .ok (.exited 0), ""⟩
    let m : Machine := ⟨.ok "/tmp/a.js", .ok (), .ok (), fun _ => .ok child⟩
    (∀ code, ¬ h.Overflows m code) ∧
      ∃ r, (Capacity.Prober.standard.probe (h.host fun _ => m) 0).result = .ok r := by
  intro h child m
  have hsafe : ∀ code, ¬ h.Overflows m code := by
    rintro code ⟨_, t, ⟨path, -, -, -, hspawn⟩, ht, hover⟩
    obtain rfl := Except.ok.inj hspawn
    obtain rfl := Option.some.inj ht
    exact absurd hover (by decide)
  exact ⟨hsafe, (h.answers_iff_deadline.2 Capacity.Prober.standard fun _ => m).mpr
    fun script _ => hsafe script⟩

/-- The largest timeout is loaded, and then the host does not answer. -/
theorem Spec.loaded_without_answer :
    let h : Spec := ⟨"/bin/sh", ["-c", "exit 0"], false, some (2 ^ 64 - 1)⟩
    let files : Files := ⟨[(["h"], .file (Text.Utf8.encode h.document.render))], []⟩
    let child : Child := ⟨.ok (), .ok (.exited 0), 1000 * second, [], .ok (.exited 0), ""⟩
    let m : Machine := ⟨.ok "/tmp/a.js", .ok (), .ok (), fun _ => .ok child⟩
    Spec.load files "/h" = .ok h ∧ (h.attempt m "1;").answer = .error .deadlineOverflow ∧
      (Capacity.Prober.standard.probe (h.host fun _ => m) 0).result = .error .deadlineOverflow := by
  intro h files child m
  have hload : Spec.load files "/h" = .ok h := by
    have hword : ∀ n ∈ h.timeout, n ≤ 2 ^ 64 - 1 := fun n hn => (Option.some.inj hn).ge
    have hfile : files.readOctets "/h" = .ok (Text.Utf8.encode h.document.render) := rfl
    rw [Spec.load_eq_check hfile, Spec.check_eq_ok_iff]
    exact ⟨Spec.Form.object.read hword (Or.inr rfl), '/', by decide, by decide⟩
  have hover : ∀ code, h.Overflows m code := fun code =>
    ⟨child, 2 ^ 64 - 1, ⟨_, rfl, rfl, rfl, rfl⟩, rfl, by decide⟩
  refine ⟨hload, (h.attempt_eq_error_iff m "1;" _).mpr (hover _), ?_⟩
  rw [Capacity.Prober.probe, Capacity.Prober.dialogue, Dialogue.play_ask_error]
  exact (h.execute_eq_error_iff (fun _ => m) 0 _ _).mpr (hover _)

end HostProbe.Command
