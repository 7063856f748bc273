import HostProbe.Proofs.CommandAnswer

/-!
What decides about a script that is run through an external program. Nothing is assumed about the
operating system: every step may be refused, the program may end in any way, and the clock may
show anything. A script is accepted only for a program that was started and then ended with status
zero, in time if there is a timeout. The watcher of a program is also described act by act, for
any sequence of polls and of clock readings, which shows when it kills.
-/

namespace HostProbe.Command

/-- The outcome of poll `k`. The program is found running as often as the clock is read after a
poll; from then on its end is reported. -/
def Child.poll (c : Child) (k : Nat) : Except SystemError (Option ExitStatus) :=
  if k < c.running.length then .ok none else c.ended.map some

/-- The clock after poll `k`. It is read only if that poll found the program running. -/
def Child.clock (c : Child) (k : Nat) : Nat := c.running.getD k 0

/-- The program is started and ends with status zero: when it is waited for, or at the first poll
that reports an end, if every reading of the clock before was earlier than the deadline. -/
inductive Spec.Succeeds (h : Spec) (m : Machine) (code : String) : Prop where
  | waited {child} : h.Starts m code child → h.timeout = none → child.wait = .ok (.exited 0) →
      Succeeds h m code
  | polled {child timeout n} : h.Starts m code child → h.timeout = some timeout →
      (∀ k < n, child.poll k = .ok none ∧ child.clock k < child.started + timeout * second) →
      child.poll n = .ok (some (.exited 0)) → Succeeds h m code

inductive Act where
  | poll (outcome : Except SystemError (Option ExitStatus))
  | read (now : Nat)
  | kill

/-- Watching from poll `k` on, whatever the polls and the clock show: all acts in their order, and
how it ends. -/
inductive Watched (poll : Nat → Except SystemError (Option ExitStatus)) (clock : Nat → Nat)
    (deadline : Nat) : Nat → List Act → Ending → Prop where
  | failed {k e} : poll k = .error e → Watched poll clock deadline k [.poll (.error e)] (.failed e)
  | exited {k status} : poll k = .ok (some status) →
      Watched poll clock deadline k [.poll (.ok (some status))] (.exited status)
  | killed {k} : poll k = .ok none → deadline ≤ clock k →
      Watched poll clock deadline k [.poll (.ok none), .read (clock k), .kill] .killed
  | again {k acts ending} : poll k = .ok none → clock k < deadline →
      Watched poll clock deadline (k + 1) acts ending →
      Watched poll clock deadline k (.poll (.ok none) :: .read (clock k) :: acts) ending

/-- The acts of watching the program that is started for a script. -/
def Spec.Watches (h : Spec) (m : Machine) (code : String) (deadline : Nat) (acts : List Act) :
    Prop :=
  ∃ child timeout ending, h.Starts m code child ∧ h.timeout = some timeout ∧
    deadline = child.started + timeout * second ∧
    Watched child.poll child.clock deadline 0 acts ending

/-- The same machine, but with other outcomes of writing to standard input. -/
def Machine.fed (m : Machine) (feeding : Launch → Except SystemError Unit) : Machine :=
  { m with spawn := fun l => (m.spawn l).map fun c => { c with feeding := feeding l } }

variable {poll poll' : Nat → Except SystemError (Option ExitStatus)} {clock clock' : Nat → Nat}
  {c : Child} {deadline k : Nat} {acts : List Act} {ending : Ending}

theorem Child.poll_eq_none_iff : c.poll k = .ok none ↔ k < c.running.length := by
  rw [Child.poll]
  split
  · next hk => exact iff_of_true rfl hk
  · next hk =>
    refine iff_of_false ?_ hk
    cases c.ended <;> simp [Except.map]

theorem Child.poll_eq_map_some_iff (outcome : Except SystemError ExitStatus) :
    c.poll k = outcome.map some ↔ c.running.length ≤ k ∧ c.ended = outcome := by
  rw [Child.poll]
  split
  · next hk =>
    refine iff_of_false ?_ fun h => absurd hk h.1.not_gt
    cases outcome <;> simp [Except.map]
  · next hk => cases c.ended <;> cases outcome <;> simp [Except.map, not_lt.mp hk]

theorem Child.clock_eq (hk : k < c.running.length) : c.clock k = c.running[k] := by
  simp [Child.clock, hk]

theorem Ending.ofPoll_eq_exited_iff {outcome : Except SystemError ExitStatus}
    {status : ExitStatus} : Ending.ofPoll outcome = .exited status ↔ outcome = .ok status := by
  cases outcome <;> simp [Ending.ofPoll]

theorem watch_eq_exited_iff {ended : Except SystemError ExitStatus} {status : ExitStatus}
    (running : List Nat) : watch deadline ended running = .exited status ↔
      ended = .ok status ∧ ∀ now ∈ running, now < deadline := by
  induction running with
  | nil => simp [watch, Ending.ofPoll_eq_exited_iff]
  | cons now later ih =>
    rw [watch]
    split
    · next hlate =>
      refine iff_of_false nofun fun h => ?_
      exact absurd (h.2 now List.mem_cons_self) hlate.not_gt
    · next hearly =>
      rw [ih, List.forall_mem_cons]
      exact ⟨fun h => ⟨h.1, not_le.mp hearly, h.2⟩, fun h => ⟨h.1, h.2.2⟩⟩

/-- The first poll that reports an end is the one after the last reading of the clock. -/
theorem Child.watch_eq_exited_iff_poll {status : ExitStatus} :
    watch deadline c.ended c.running = .exited status ↔
      ∃ n, (∀ k < n, c.poll k = .ok none ∧ c.clock k < deadline) ∧
        c.poll n = .ok (some status) := by
  rw [watch_eq_exited_iff]
  constructor
  · rintro ⟨hended, hearly⟩
    have hpoll : c.poll c.running.length = .ok (some status) :=
      (Child.poll_eq_map_some_iff (.ok status)).mpr ⟨le_rfl, hended⟩
    refine ⟨c.running.length, ?_, hpoll⟩
    intro k hk
    refine ⟨Child.poll_eq_none_iff.mpr hk, ?_⟩
    rw [Child.clock_eq hk]
    exact hearly _ (List.getElem_mem hk)
  · rintro ⟨n, hruns, hpoll⟩
    obtain ⟨hn, hended⟩ := (Child.poll_eq_map_some_iff (.ok status)).mp hpoll
    refine ⟨hended, ?_⟩
    intro now hnow
    obtain ⟨k, hk, rfl⟩ := List.getElem_of_mem hnow
    rw [← Child.clock_eq hk]
    exact (hruns k (hk.trans_le hn)).2

/-- A kill is the last act, right after a poll that found the program running and a reading of the
clock at or past the deadline. -/
theorem Watched.kill_last (h : Watched poll clock deadline k acts ending) (hkill : .kill ∈ acts) :
    ending = .killed ∧ ∃ earlier now, acts = earlier ++ [.poll (.ok none), .read now, .kill] ∧
      .kill ∉ earlier ∧ deadline ≤ now := by
  induction h with
  | failed _ | exited _ => simp at hkill
  | @killed k _ hlate => exact ⟨rfl, [], clock k, rfl, List.not_mem_nil, hlate⟩
  | @again k acts ending _ _ _ ih =>
    have hlater : .kill ∈ acts := by simpa using hkill
    obtain ⟨hending, earlier, now, rfl, hearlier, hlate⟩ := ih hlater
    exact ⟨hending, .poll (.ok none) :: .read (clock k) :: earlier, now, rfl,
      by simpa using hearlier, hlate⟩

theorem Watched.kill_mem (h : Watched poll clock deadline k acts ending)
    (hkilled : ending = .killed) : .kill ∈ acts := by
  induction h with
  | failed _ | exited _ => cases hkilled
  | killed _ _ => simp
  | again _ _ _ ih => simpa using ih hkilled

theorem Watched.watch_eq (h : Watched c.poll c.clock deadline k acts ending) :
    watch deadline c.ended (c.running.drop k) = ending := by
  induction h with
  | @failed k e hpoll =>
    obtain ⟨hk, hended⟩ := (Child.poll_eq_map_some_iff (.error e)).mp hpoll
    rw [List.drop_eq_nil_of_le hk, hended, watch, Ending.ofPoll]
  | @exited k status hpoll =>
    obtain ⟨hk, hended⟩ := (Child.poll_eq_map_some_iff (.ok status)).mp hpoll
    rw [List.drop_eq_nil_of_le hk, hended, watch, Ending.ofPoll]
  | @killed k hpoll hlate =>
    have hk := Child.poll_eq_none_iff.mp hpoll
    rw [Child.clock_eq hk] at hlate
    rw [List.drop_eq_getElem_cons hk, watch, if_pos hlate]
  | @again k acts ending hpoll hearly _ ih =>
    have hk := Child.poll_eq_none_iff.mp hpoll
    rw [Child.clock_eq hk] at hearly
    rw [List.drop_eq_getElem_cons hk, watch, if_neg hearly.not_ge, ih]

theorem Child.exists_watched (c : Child) (deadline k : Nat) : ∃ acts,
    Watched c.poll c.clock deadline k acts (watch deadline c.ended (c.running.drop k)) := by
  -- by induction on the readings that are left
  generalize hleft : c.running.drop k = left
  induction left generalizing k with
  | nil =>
    have hpoll : c.poll k = c.ended.map some :=
      (Child.poll_eq_map_some_iff c.ended).mpr ⟨List.drop_eq_nil_iff.mp hleft, rfl⟩
    cases hended : c.ended with
    | error e => exact ⟨_, .failed (by rw [hpoll, hended]; rfl)⟩
    | ok status => exact ⟨_, .exited (by rw [hpoll, hended]; rfl)⟩
  | cons now later ih =>
    have hk : k < c.running.length := by
      apply Nat.lt_of_not_le
      intro hle
      rw [List.drop_eq_nil_of_le hle] at hleft
      cases hleft
    have hpoll : c.poll k = .ok none := Child.poll_eq_none_iff.mpr hk
    rw [List.drop_eq_getElem_cons hk, ← Child.clock_eq hk] at hleft
    obtain ⟨rfl, hlater⟩ := List.cons.inj hleft
    by_cases hlate : deadline ≤ c.clock k
    · rw [watch, if_pos hlate]
      exact ⟨_, .killed hpoll hlate⟩
    · rw [watch, if_neg hlate]
      obtain ⟨acts, hacts⟩ := ih (k + 1) hlater
      exact ⟨_, .again hpoll (not_le.mp hlate) hacts⟩

theorem Watched.shift (h : Watched poll clock deadline k acts ending)
    (hpoll : ∀ j, poll' (j + 1) = poll j) (hclock : ∀ j, clock' (j + 1) = clock j) :
    Watched poll' clock' deadline (k + 1) acts ending := by
  induction h with
  | failed h => exact .failed (by rw [hpoll, h])
  | exited h => exact .exited (by rw [hpoll, h])
  | @killed k h hlate =>
    rw [← hclock k] at hlate ⊢
    exact .killed (by rw [hpoll, h]) hlate
  | @again k acts ending h hearly _ ih =>
    rw [← hclock k] at hearly ⊢
    exact .again (by rw [hpoll, h]) hearly ih

/-- Whatever a watcher sees until it stops, some program is seen so. -/
theorem Watched.exists_child (h : Watched poll clock deadline k acts ending) :
    ∃ c : Child, Watched c.poll c.clock deadline 0 acts ending := by
  induction h with
  | @failed k e _ => exact ⟨⟨.ok (), .error e, 0, [], .error e, ""⟩, .failed rfl⟩
  | @exited k status _ => exact ⟨⟨.ok (), .ok status, 0, [], .ok status, ""⟩, .exited rfl⟩
  | @killed k _ hlate =>
    exact ⟨⟨.ok (), .ok (.exited 0), 0, [clock k], .ok (.exited 0), ""⟩, .killed rfl hlate⟩
  | @again k acts ending _ hearly _ ih =>
    obtain ⟨c, hc⟩ := ih
    refine ⟨{ c with running := clock k :: c.running }, .again ?_ hearly (hc.shift ?_ ?_)⟩
    · exact Child.poll_eq_none_iff.mpr (Nat.zero_lt_succ _)
    · intro j
      simp [Child.poll]
    · intro j
      rfl

theorem Child.ending_none (c : Child) : c.ending none = .ok (.ofPoll c.wait) := rfl

theorem Child.ending_some {timeout : Nat} (h : c.started / second + timeout ≤ maxSeconds) :
    c.ending (some timeout) =
      .ok (watch (c.started + timeout * second) c.ended c.running) := by
  rw [Child.ending, deadline, if_pos h]

/-- Only an end with status zero is an acceptance. -/
theorem Child.attempt_of_ending {timeout : Option Nat} (h : c.ending timeout = .ok ending) :
    (c.attempt timeout).answer = .ok (decide (ending = .exited (.exited 0))) ∧
      (c.attempt timeout).killed = decide (ending = .killed) := by
  rw [Child.attempt, h]
  cases ending with
  | killed => exact ⟨rfl, rfl⟩
  | failed e => exact ⟨rfl, rfl⟩
  | exited status => simp [ExitStatus.success]

variable {h : Spec} {m : Machine} {code : String}

theorem Spec.Starts.le_maxSeconds (hstarts : h.Starts m code c) (hinstant : ¬ h.Overflows m code)
    {timeout : Nat} (ht : h.timeout = some timeout) : c.started / second + timeout ≤ maxSeconds := by
  apply Nat.le_of_not_lt
  intro hover
  exact hinstant ⟨c, timeout, hstarts, ht, hover⟩

theorem Spec.answer_eq_true_iff (hinstant : ¬ h.Overflows m code) :
    (h.attempt m code).answer = .ok true ↔ h.Succeeds m code := by
  rcases h.attempt_cases m code with ⟨child, hstarts, hanswer, -⟩ | ⟨hnone, hanswer, -⟩
  · rw [hanswer]
    cases ht : h.timeout with
    | none =>
      rw [(Child.attempt_of_ending child.ending_none).1, Except.ok.injEq, decide_eq_true_eq,
        Ending.ofPoll_eq_exited_iff]
      constructor
      · intro hwait
        exact .waited hstarts ht hwait
      · rintro (⟨hother, -, hwait⟩ | ⟨-, hsome, -, -⟩)
        · rw [hstarts.unique hother, hwait]
        · exact nomatch ht.symm.trans hsome
    | some timeout =>
      have hending := Child.ending_some (hstarts.le_maxSeconds hinstant ht)
      rw [(Child.attempt_of_ending hending).1, Except.ok.injEq, decide_eq_true_eq,
        Child.watch_eq_exited_iff_poll]
      constructor
      · rintro ⟨n, hruns, hpoll⟩
        exact .polled hstarts ht hruns hpoll
      · rintro (⟨-, hnone, -⟩ | ⟨hother, hsome, hruns, hpoll⟩)
        · exact nomatch ht.symm.trans hnone
        · obtain rfl := hstarts.unique hother
          obtain rfl := Option.some.inj (ht.symm.trans hsome)
          exact ⟨_, hruns, hpoll⟩
  · rw [hanswer]
    refine iff_of_false nofun ?_
    rintro (⟨hstarts, -, -⟩ | ⟨hstarts, -, -, -⟩) <;> exact hnone _ hstarts

theorem Spec.answer_eq_false_iff (hinstant : ¬ h.Overflows m code) :
    (h.attempt m code).answer = .ok false ↔ ¬ h.Succeeds m code := by
  rw [← Spec.answer_eq_true_iff hinstant]
  cases hanswer : (h.attempt m code).answer with
  | error e => exact absurd ((h.attempt_eq_error_iff m code e).mp hanswer) hinstant
  | ok accepted => cases accepted <;> simp

theorem Spec.killed_iff (hinstant : ¬ h.Overflows m code) :
    (h.attempt m code).killed = true ↔ ∃ deadline acts, h.Watches m code deadline acts ∧
      .kill ∈ acts := by
  rcases h.attempt_cases m code with ⟨child, hstarts, -, hkilled⟩ | ⟨hnone, -, hkilled⟩
  · rw [hkilled]
    cases ht : h.timeout with
    | none =>
      rw [(Child.attempt_of_ending child.ending_none).2, decide_eq_true_eq]
      refine iff_of_false ?_ ?_
      · cases child.wait <;> exact nofun
      · rintro ⟨_, _, ⟨_, _, _, -, hsome, -⟩, -⟩
        exact nomatch ht.symm.trans hsome
    | some timeout =>
      have hending := Child.ending_some (hstarts.le_maxSeconds hinstant ht)
      rw [(Child.attempt_of_ending hending).2, decide_eq_true_eq]
      constructor
      · intro hwatch
        obtain ⟨acts, hacts⟩ := child.exists_watched (child.started + timeout * second) 0
        exact ⟨_, acts, ⟨child, timeout, _, hstarts, ht, rfl, hacts⟩, hacts.kill_mem hwatch⟩
      · rintro ⟨_, acts, ⟨other, t, ending, hother, hsome, rfl, hacts⟩, hkill⟩
        obtain rfl := hstarts.unique hother
        obtain rfl := Option.some.inj (ht.symm.trans hsome)
        exact hacts.watch_eq.trans (hacts.kill_last hkill).1
  · rw [hkilled]
    refine iff_of_false nofun ?_
    rintro ⟨_, _, ⟨child, _, _, hstarts, -⟩, -⟩
    exact hnone child hstarts

theorem Spec.attempt_fed (h : Spec) (m : Machine) (code : String)
    (feeding : Launch → Except SystemError Unit) :
    (h.attempt (m.fed feeding) code).answer = (h.attempt m code).answer ∧
      (h.attempt (m.fed feeding) code).killed = (h.attempt m code).killed := by
  simp only [Spec.attempt, Machine.fed]
  cases m.createFile with
  | error e => exact ⟨rfl, rfl⟩
  | ok path =>
    cases m.writeFile with
    | error e => exact ⟨rfl, rfl⟩
    | ok _ =>
      cases m.flushFile with
      | error e => exact ⟨rfl, rfl⟩
      | ok _ =>
        cases hspawn : m.spawn (h.launch code path) with
        | error e => simp only [hspawn, Except.map, and_self]
        | ok child =>
          -- the outcome of feeding is looked at for the log only
          simp only [hspawn, Except.map]
          exact ⟨rfl, rfl⟩

theorem Spec.answers_iff (h : Spec) (machine : Nat → Machine) (k : Nat) (code : String)
    (accepted : Bool) : (h.host machine).Answers k code accepted ↔
      (h.attempt (machine k) code).answer = .ok accepted := by
  simp only [Host.Answers, Spec.host]
  cases (h.attempt (machine k) code).answer <;> simp

/-- An external host whose deadline the clock can show accepts a script exactly when its program is
started and ends with status zero in time, and rejects it otherwise. Whatever polls and clock show,
the program is killed only right after it was found running and the clock was then read at or past
the deadline. What becomes of the script on standard input changes none of this. -/
theorem Spec.accepts_iff_succeeds (h : Spec) (machine : Nat → Machine) (k : Nat) (code : String)
    (hinstant : ¬ h.Overflows (machine k) code) :
    ((h.host machine).Answers k code true ↔ h.Succeeds (machine k) code) ∧
    ((h.host machine).Answers k code false ↔ ¬ h.Succeeds (machine k) code) ∧
    ((h.attempt (machine k) code).killed = true ↔
      ∃ deadline acts, h.Watches (machine k) code deadline acts ∧ .kill ∈ acts) ∧
    (∀ poll clock deadline acts ending, Watched poll clock deadline 0 acts ending →
      (.kill ∈ acts → ∃ earlier now, acts = earlier ++ [.poll (.ok none), .read now, .kill] ∧
        .kill ∉ earlier ∧ deadline ≤ now) ∧
      ∃ child : Child, Watched child.poll child.clock deadline 0 acts ending) ∧
    ∀ feeding : Nat → Launch → Except SystemError Unit,
      (∀ accepted, (h.host fun i => (machine i).fed (feeding i)).Answers k code accepted ↔
        (h.host machine).Answers k code accepted) ∧
      (h.attempt ((machine k).fed (feeding k)) code).killed =
        (h.attempt (machine k) code).killed := by
  refine ⟨?_, ?_, Spec.killed_iff hinstant, ?_, ?_⟩
  · rw [Spec.answers_iff, Spec.answer_eq_true_iff hinstant]
  · rw [Spec.answers_iff, Spec.answer_eq_false_iff hinstant]
  · intro poll clock deadline acts ending hacts
    exact ⟨fun hkill => (hacts.kill_last hkill).2, hacts.exists_child⟩
  · intro feeding
    obtain ⟨hanswer, hkilled⟩ := h.attempt_fed (machine k) code (feeding k)
    refine ⟨?_, hkilled⟩
    intro accepted
    rw [Spec.answers_iff, Spec.answers_iff, hanswer]

/-- A timeout of one second and a program that is found running twice before it ends well: it is
in time if the last reading is a nanosecond early, and killed if that reading is the deadline. -/
theorem Spec.accepts_iff_succeeds_at_deadline :
    let h : Spec := ⟨"true", [], true, some 1⟩
    let child (last : Nat) : Child :=
      ⟨.error .brokenPipe, .ok (.exited 0), 5000000000, [5000000000, last], .ok (.exited 0), ""⟩
    let machine (last : Nat) : Machine :=
      ⟨.ok "/tmp/a.js", .ok (), .ok (), fun _ => .ok (child last)⟩
    (∀ last, ¬ h.Overflows (machine last) "1;") ∧
      (h.host fun _ => machine 5999999999).Answers 0 "1;" true ∧
      (h.host fun _ => machine 6000000000).Answers 0 "1;" false ∧
      (h.attempt (machine 6000000000) "1;").killed = true := by
  intro h child machine
  have hstarts (last : Nat) : h.Starts (machine last) "1;" (child last) :=
    ⟨_, rfl, rfl, rfl, rfl⟩
  have hinstant (last : Nat) : ¬ h.Overflows (machine last) "1;" := by
    rintro ⟨other, timeout, hother, ht, hover⟩
    obtain rfl := (hstarts last).unique hother
    obtain rfl := Option.some.inj ht
    have hfits : ¬ maxSeconds < 5000000000 / second + 1 := by decide
    exact hfits hover
  have hearly : h.Succeeds (machine 5999999999) "1;" := by
    refine .polled (hstarts _) rfl (n := 2) ?_ rfl
    intro k hk
    match k, hk with
    | 0, _ => exact ⟨rfl, by decide⟩
    | 1, _ => exact ⟨rfl, by decide⟩
  have hlate : ¬ h.Succeeds (machine 6000000000) "1;" := by
    rintro (⟨-, ht, -⟩ | @⟨other, _, n, hother, ht, hruns, hpoll⟩)
    · cases ht
    · obtain rfl := (hstarts _).unique hother
      obtain rfl := Option.some.inj ht
      obtain ⟨hn, -⟩ := (Child.poll_eq_map_some_iff (.ok (.exited 0))).mp hpoll
      exact absurd (hruns 1 hn).2 (by decide)
  have hwatches : h.Watches (machine 6000000000) "1;" 6000000000
      [.poll (.ok none), .read 5000000000, .poll (.ok none), .read 6000000000, .kill] :=
    ⟨_, 1, .killed, hstarts _, rfl, by decide,
      .again rfl (by decide) (.killed rfl (by decide))⟩
  obtain ⟨haccepts, -⟩ := h.accepts_iff_succeeds (fun _ => machine _) 0 "1;" (hinstant _)
  obtain ⟨-, hrejects, hkills, -⟩ :=
    h.accepts_iff_succeeds (fun _ => machine _) 0 "1;" (hinstant _)
  exact ⟨hinstant, haccepts.mpr hearly, hrejects.mpr hlate, hkills.mpr ⟨_, _, hwatches, by simp⟩⟩

end HostProbe.Command
