import HostProbe.Dialogue
import HostProbe.Host.Limit

/-!
Dialogues against hosts. The calls of a run are what the host itself was asked, and a host that
answers by a predicate on scripts gives every call the answer of that predicate.
-/

namespace HostProbe

variable {ε σ α : Type}

namespace Host

def Answers (host : Host ε σ) (s : σ) (script : String) (accepted : Bool) : Prop :=
  ∃ reply, host.execute s script = .ok reply ∧ reply.accepted = accepted

/-- The answers depend on nothing but the script. The state may still change, and records may be
written. -/
def AnswersBy (host : Host ε σ) (accepts : String → Bool) : Prop :=
  ∀ s script, host.Answers s script (accepts script)

/-- The same host, which also keeps a list of the calls made to it. -/
def recording (host : Host ε σ) : Host ε (σ × List Call) :=
  ⟨fun s script =>
    match host.execute s.1 script with
    | .error e => .error e
    | .ok reply =>
      .ok ⟨reply.accepted, (reply.state, s.2 ++ [⟨script, reply.accepted⟩]), reply.log⟩⟩

theorem ofPredicate_answersBy (accepts : String → Bool) :
    (ofPredicate accepts : Host ε Unit).AnswersBy accepts :=
  fun _ _ => ⟨_, rfl, rfl⟩

theorem limit_answersBy (n : Nat) :
    (limit n : Host ε σ).AnswersBy fun script => decide (script.length ≤ n) :=
  fun _ _ => ⟨_, rfl, rfl⟩

theorem limit_answers_true_iff (n : Nat) (s : σ) (script : String) :
    (limit n : Host ε σ).Answers s script true ↔ script.length ≤ n := by
  constructor
  · rintro ⟨reply, hok, ha⟩
    cases hok
    exact of_decide_eq_true ha
  · intro h
    exact ⟨_, rfl, decide_eq_true h⟩

/-- Two hosts that accept alike and break down alike, whatever records they write. -/
def Agrees (host other : Host ε σ) : Prop :=
  ∀ s script, (host.execute s script).map (fun reply => (reply.accepted, reply.state)) =
    (other.execute s script).map fun reply => (reply.accepted, reply.state)

end Host

theorem Run.result_eq_ok (r : Run Empty σ α) : r.result = .ok r.value := by
  rcases r with ⟨result, state, calls, log⟩
  cases result with
  | error e => exact e.elim
  | ok a => rfl

theorem Run.value_eq {r : Run Empty σ α} {a : α} (h : r.result = .ok a) : r.value = a := by
  rw [r.result_eq_ok] at h
  exact Except.ok.inj h

namespace Dialogue

theorem play_ask_ok {host : Host ε σ} {s : σ} {script : String} {next : Bool → Dialogue α}
    {reply : Reply σ} (h : host.execute s script = .ok reply) :
    (ask script next).play host s =
      let run := (next reply.accepted).play host reply.state
      { run with
        calls := ⟨script, reply.accepted⟩ :: run.calls
        log := reply.log ++ run.log } := by
  simp only [play, h]

theorem play_ask_error {host : Host ε σ} {s : σ} {script : String} {next : Bool → Dialogue α}
    {e : ε} (h : host.execute s script = .error e) :
    (ask script next).play host s = ⟨.error e, s, [], []⟩ := by
  simp only [play, h]

/-- The first call of a run is the host's answer to what is asked first. -/
theorem answers_of_play_ask {host : Host ε σ} {s : σ} {script : String} {next : Bool → Dialogue α}
    {c : Call} {rest : List Call} (h : ((ask script next).play host s).calls = c :: rest) :
    host.Answers s script c.accepted := by
  cases hx : host.execute s script with
  | error e =>
    rw [play_ask_error hx] at h
    cases h
  | ok reply =>
    rw [play_ask_ok hx] at h
    obtain ⟨rfl, -⟩ := List.cons.inj h
    exact ⟨reply, hx, rfl⟩

theorem calls_answered {host : Host ε σ} {accepts : String → Bool} (h : host.AnswersBy accepts)
    (d : Dialogue α) (s : σ) : ∀ c ∈ (d.play host s).calls, c.accepted = accepts c.script := by
  induction d generalizing s with
  | done a => intro c hc; cases hc
  | note r d ih => exact ih s
  | ask script next ih =>
    obtain ⟨reply, hok, ha⟩ := h s script
    rw [play_ask_ok hok]
    intro c hc
    rcases List.mem_cons.mp hc with rfl | hc
    · exact ha
    · exact ih reply.accepted reply.state c hc

/-- A dialogue sees nothing of a host but its answers. Once a run has ended, any host that gives
the same answers to the scripts of that run leads to the same calls and the same result. -/
theorem play_replay {ε' τ : Type} {host : Host ε σ} {other : Host ε' τ} {accepts : String → Bool}
    (hother : other.AnswersBy accepts) (d : Dialogue α) (s : σ) (t : τ) {a : α}
    (hok : (d.play host s).result = .ok a)
    (hcalls : ∀ c ∈ (d.play host s).calls, c.accepted = accepts c.script) :
    (d.play other t).calls = (d.play host s).calls ∧ (d.play other t).result = .ok a := by
  induction d generalizing s t with
  | done b =>
    cases hok
    exact ⟨rfl, rfl⟩
  | note r d ih => exact ih s t hok hcalls
  | ask script next ih =>
    cases hx : host.execute s script with
    | error e =>
      rw [play_ask_error hx] at hok
      cases hok
    | ok reply =>
      obtain ⟨echo, hecho, hanswer⟩ := hother t script
      rw [play_ask_ok hx] at hok hcalls ⊢
      have hagree : echo.accepted = reply.accepted :=
        hanswer.trans (hcalls _ List.mem_cons_self).symm
      rw [play_ask_ok hecho, hagree]
      obtain ⟨hrest, hresult⟩ := ih reply.accepted reply.state echo.state hok
        fun c hc => hcalls c (List.mem_cons_of_mem _ hc)
      exact ⟨congrArg (Call.mk script reply.accepted :: ·) hrest, hresult⟩

/-- Hosts that agree are asked the same and lead to the same result. -/
theorem play_agrees {host other : Host ε σ} (h : host.Agrees other) (d : Dialogue α) (s : σ) :
    (d.play host s).calls = (d.play other s).calls ∧
      (d.play host s).result = (d.play other s).result := by
  induction d generalizing s with
  | done a => exact ⟨rfl, rfl⟩
  | note r d ih => exact ih s
  | ask script next ih =>
    have hagree := h s script
    cases hx : host.execute s script with
    | error e =>
      cases hy : other.execute s script with
      | error e' =>
        rw [hx, hy] at hagree
        obtain rfl := Except.error.inj hagree
        rw [play_ask_error hx, play_ask_error hy]
        exact ⟨rfl, rfl⟩
      | ok reply =>
        rw [hx, hy] at hagree
        cases hagree
    | ok reply =>
      cases hy : other.execute s script with
      | error e =>
        rw [hx, hy] at hagree
        cases hagree
      | ok echo =>
        rw [hx, hy] at hagree
        obtain ⟨haccepted, hstate⟩ := Prod.mk.inj (Except.ok.inj hagree)
        rw [play_ask_ok hx, play_ask_ok hy, haccepted, hstate]
        obtain ⟨hcalls, hresult⟩ := ih echo.accepted echo.state
        exact ⟨congrArg (Call.mk script echo.accepted :: ·) hcalls, hresult⟩

/-- What is asked next, after these answers. -/
def next : Dialogue α → List Bool → Option String
  | done _, _ => none
  | note _ d, answers => d.next answers
  | ask script _, [] => some script
  | ask _ more, answer :: answers => (more answer).next answers

/-- A run ends without a result exactly when the host breaks down on what is asked next. -/
theorem play_eq_error_iff (host : Host ε σ) (d : Dialogue α) (s : σ) (e : ε) :
    (d.play host s).result = .error e ↔
      ∃ script, d.next ((d.play host s).calls.map Call.accepted) = some script ∧
        host.execute (d.play host s).state script = .error e := by
  induction d generalizing s with
  | done a => simp [play, next]
  | note r d ih => exact ih s
  | ask script more ih =>
    cases hx : host.execute s script with
    | error e' => simp [play_ask_error hx, next, hx]
    | ok reply =>
      rw [play_ask_ok hx]
      exact ih reply.accepted reply.state

/-- What the player writes down is what the host was asked. -/
theorem play_recording (host : Host ε σ) (d : Dialogue α) (s : σ) (before : List Call) :
    (d.play host.recording (s, before)).state =
      ((d.play host s).state, before ++ (d.play host s).calls) := by
  induction d generalizing s before with
  | done a => simp only [play, List.append_nil]
  | note r d ih => exact ih s before
  | ask script next ih =>
    cases hx : host.execute s script with
    | error e =>
      have hr : host.recording.execute (s, before) script = .error e := by
        simp only [Host.recording, hx]
      simp only [play_ask_error hx, play_ask_error hr, List.append_nil]
    | ok reply =>
      have hr : host.recording.execute (s, before) script =
          .ok ⟨reply.accepted, (reply.state, before ++ [⟨script, reply.accepted⟩]), reply.log⟩ := by
        simp only [Host.recording, hx]
      simp only [play_ask_ok hx, play_ask_ok hr, ih, List.append_assoc, List.singleton_append]

end Dialogue

end HostProbe
