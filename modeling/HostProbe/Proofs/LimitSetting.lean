import HostProbe.Proofs.RunOutcome
import HostProbe.Proofs.SettingsLayers
import Mathlib.Data.Nat.Digits.Defs

/-!
Numbers in the settings. A value counts as a number exactly when it is the text of an unsigned word
of 64 bits, with at most one plus sign and any number of leading zeros. The reader takes the value
of all digits and then looks at its size; a reader that checks the size at every digit reads the
same. A run that has only the settings to take its limit from uses exactly that number, or fails
before it asks the host.
-/

namespace HostProbe

namespace Text.Decimal

/-- The number that digits stand for: the last counts ones, the one before it tens, and so on. -/
def placeValue (l : List Char) : Nat :=
  Nat.ofDigits 10 (l.reverse.map fun c => c.toNat - '0'.toNat)

/-- The text of an unsigned word. -/
def SpellsWord (v : String) (n : Nat) : Prop :=
  ∃ sign digits, v.toList = sign ++ digits ∧ (sign = [] ∨ sign = ['+']) ∧ digits ≠ [] ∧
    (∀ c ∈ digits, c.isDigit = true) ∧ placeValue digits = n ∧ n ≤ 2 ^ 64 - 1

/-- What follows the sign. -/
def unsigned : List Char → List Char
  | '+' :: l => l
  | l => l

/-- One more digit, with a check after the multiplication and one after the addition. -/
def checkedStep (n : Nat) (c : Char) : Option Nat :=
  (inWord (10 * n)).bind fun m => inWord (m + (c.toNat - '0'.toNat))

/-- Goes on reading, up to the first character that is no digit or leads out of the words. -/
def checkedFrom (n : Nat) : List Char → Option Nat
  | [] => some n
  | c :: l => if c.isDigit then (checkedStep n c).bind fun m => checkedFrom m l else none

def checkedWord? (v : String) : Option Nat :=
  if unsigned v.toList = [] then none else checkedFrom 0 (unsigned v.toList)

/-- The value of what was read before and of the digits that follow. -/
def valueFrom (n : Nat) (l : List Char) : Nat :=
  l.foldl (fun n c => 10 * n + (c.toNat - '0'.toNat)) n

theorem placeValue_append (a b : List Char) :
    placeValue (a ++ b) = placeValue b + 10 ^ b.length * placeValue a := by
  rw [placeValue, List.reverse_append, List.map_append, Nat.ofDigits_append, List.length_map,
    List.length_reverse]
  rfl

theorem placeValue_le_append (a b : List Char) : placeValue a ≤ placeValue (a ++ b) := by
  have hpower : 0 < 10 ^ b.length := Nat.pow_pos (by decide)
  rw [placeValue_append]
  exact (Nat.le_mul_of_pos_left _ hpower).trans (Nat.le_add_left _ _)

theorem value_eq_placeValue (l : List Char) : value l = placeValue l := by
  induction l using List.reverseRecOn with
  | nil => rfl
  | append_singleton l c ih =>
    rw [placeValue_append, ← ih, value, List.foldl_append]
    simp [value, placeValue, Nat.add_comm]

theorem word?_eq (v : String) : word? v = (digits? (unsigned v.toList)).bind inWord := by
  rw [word?]
  split
  · next l h => rw [h, unsigned]
  · next h => rw [unsigned.eq_2 _ h]

theorem exists_sign (l : List Char) :
    ∃ sign, l = sign ++ unsigned l ∧ (sign = [] ∨ sign = ['+']) := by
  by_cases h : ∃ r, l = '+' :: r
  · obtain ⟨r, rfl⟩ := h
    exact ⟨['+'], rfl, Or.inr rfl⟩
  · exact ⟨[], (unsigned.eq_2 l fun r hr => h ⟨r, hr⟩).symm, Or.inl rfl⟩

/-- A digit is no sign, so digits and their sign can be told apart. -/
theorem unsigned_append {sign digits : List Char} (hsign : sign = [] ∨ sign = ['+'])
    (hdigits : ∀ c ∈ digits.head?, c.isDigit = true) : unsigned (sign ++ digits) = digits := by
  rcases hsign with rfl | rfl
  · apply unsigned.eq_2
    rintro l rfl
    cases hdigits '+' rfl
  · rfl

theorem word?_eq_some_iff {v : String} {n : Nat} : word? v = some n ↔ SpellsWord v n := by
  rw [word?_eq, Option.bind_eq_some_iff]
  constructor
  · rintro ⟨m, hread, hword⟩
    obtain ⟨⟨hne, hdigits⟩, rfl⟩ := digits?_eq_some_iff.mp hread
    obtain ⟨rfl, hbound⟩ := inWord_eq_some_iff.mp hword
    obtain ⟨sign, hsplit, hsign⟩ := exists_sign v.toList
    exact ⟨sign, _, hsplit, hsign, hne, hdigits, (value_eq_placeValue _).symm, hbound⟩
  · rintro ⟨sign, digits, hsplit, hsign, hne, hdigits, rfl, hbound⟩
    have hrest : unsigned v.toList = digits := by
      rw [hsplit, unsigned_append hsign fun c hc => hdigits c (List.mem_of_head? hc)]
    refine ⟨placeValue digits, ?_, inWord_eq_some_iff.mpr ⟨rfl, hbound⟩⟩
    rw [hrest, digits?_eq_some_iff]
    exact ⟨⟨hne, hdigits⟩, value_eq_placeValue digits⟩

theorem inWord_of_lt {n : Nat} (h : n < wordBound) : inWord n = some n := if_pos h

theorem inWord_of_le {n : Nat} (h : wordBound ≤ n) : inWord n = none := if_neg (Nat.not_lt.mpr h)

theorem checkedStep_eq (n : Nat) (c : Char) :
    checkedStep n c = inWord (10 * n + (c.toNat - '0'.toNat)) := by
  rw [checkedStep]
  rcases Nat.lt_or_ge (10 * n) wordBound with h | h
  · rw [inWord_of_lt h, Option.bind_some]
  · rw [inWord_of_le h, Option.bind_none, inWord_of_le (h.trans (Nat.le_add_right _ _))]

theorem le_valueFrom (n : Nat) (l : List Char) : n ≤ valueFrom n l := by
  induction l generalizing n with
  | nil => exact Nat.le_refl n
  | cons c l ih =>
    have hstep : n ≤ 10 * n + (c.toNat - '0'.toNat) := by omega
    exact hstep.trans (ih _)

/-- The running value only grows, so that it leaves the words at some digit exactly if the value of
all digits is no word. -/
theorem checkedFrom_eq {n : Nat} (hn : n < wordBound) (l : List Char) :
    checkedFrom n l = if l.all Char.isDigit then inWord (valueFrom n l) else none := by
  induction l generalizing n with
  | nil => exact (inWord_of_lt hn).symm
  | cons c l ih =>
    rw [checkedFrom, checkedStep_eq, List.all_cons, valueFrom, List.foldl_cons, ← valueFrom]
    by_cases hc : c.isDigit = true
    · rw [if_pos hc, hc, Bool.true_and]
      rcases Nat.lt_or_ge (10 * n + (c.toNat - '0'.toNat)) wordBound with hnext | hnext
      · rw [inWord_of_lt hnext, Option.bind_some, ih hnext]
      · -- too large already: the loop stops here, and no later digit brings the value down
        rw [inWord_of_le hnext, inWord_of_le (hnext.trans (le_valueFrom _ l)), Option.bind_none,
          ite_self]
    · rw [if_neg hc, if_neg (by simp [hc])]

theorem checkedWord?_eq (v : String) : checkedWord? v = word? v := by
  rw [checkedWord?, word?_eq, digits?]
  by_cases hne : unsigned v.toList = []
  · rw [if_pos hne, if_neg fun h => h.1 hne, Option.bind_none]
  · rw [if_neg hne, checkedFrom_eq (by decide)]
    by_cases hall : (unsigned v.toList).all Char.isDigit = true
    · rw [if_pos hall, if_pos ⟨hne, hall⟩, Option.bind_some, value, valueFrom]
    · rw [if_neg hall, if_neg fun h => hall h.2, Option.bind_none]

/-- Digits that are too many already make any text that they begin no number. -/
theorem word?_eq_none_of_prefix {v : String} {sign digits rest : List Char}
    (hsplit : v.toList = sign ++ digits ++ rest) (hsign : sign = [] ∨ sign = ['+'])
    (hdigits : ∀ c ∈ digits, c.isDigit = true) (hover : 2 ^ 64 - 1 < placeValue digits) :
    word? v = none := by
  rw [Option.eq_none_iff_forall_ne_some]
  intro n hread
  obtain ⟨sign', digits', hsplit', hsign', -, hdigits', rfl, hbound⟩ := word?_eq_some_iff.mp hread
  have hhead : ∀ c ∈ (digits ++ rest).head?, c.isDigit = true := by
    cases digits with
    | nil => exact absurd hover (by decide)
    | cons d digits =>
      rintro c ⟨⟩
      exact hdigits d List.mem_cons_self
  have hsame : digits' = digits ++ rest := by
    rw [← unsigned_append hsign hhead, ← List.append_assoc, ← hsplit, hsplit',
      unsigned_append hsign' fun c hc => hdigits' c (List.mem_of_head? hc)]
  have hgrown := placeValue_le_append digits rest
  rw [hsame] at hbound
  omega

end Text.Decimal

namespace CommandLine

open Capacity (Prober)
open Text.Decimal

variable {w : World} {args : List String} {a : Arguments}

/-- A capacity run on the limit host that finds its limit in the settings, if at all. -/
structure TakesLimit (w : World) (args : List String) (a : Arguments) : Prop where
  arguments : Request.ofArgs args = .run a
  capacity : a.runtime = false
  kind : WantsKind a (Settings.load w.files w.environment) .limit
  unflagged : a.limit = none

theorem TakesLimit.required (h : TakesLimit w args a) {p : Prober} (hp : Probes w a p)
    (hlimit : (Settings.load w.files w.environment).hostLimit? = none) :
    Refused (run w args) .limitRequired := by
  have hhindered : Hindered w a (Settings.load w.files w.environment) .limitRequired :=
    Or.inr ⟨⟨p, hp⟩, .noLimit h.kind h.unflagged hlimit⟩
  rw [run_eq_runWith h.arguments]
  exact hhindered.refused h.capacity

theorem TakesLimit.refused (h : TakesLimit w args a)
    (hlimit : (Settings.load w.files w.environment).hostLimit? = none) :
    ∃ e, Refused (run w args) e := by
  -- without a body to probe with, the script is what the run fails for
  rcases probes_or_fault w a with ⟨p, hp⟩ | ⟨cause, hscript⟩
  · exact ⟨_, h.required hp hlimit⟩
  · have hhindered : Hindered w a (Settings.load w.files w.environment) (.script cause) :=
      Or.inl ⟨cause, rfl, hscript⟩
    rw [run_eq_runWith h.arguments]
    exact ⟨_, hhindered.refused h.capacity⟩

theorem TakesLimit.reported (h : TakesLimit w args a) {p : Prober} (hp : Probes w a p) {n : Nat}
    (hlimit : (Settings.load w.files w.environment).hostLimit? = some n) :
    ∃ r, Reported w a (Settings.load w.files w.environment) (run w args) p (.limit n) r := by
  have hfound : (a.limit <|> (Settings.load w.files w.environment).hostLimit?) = some n := by
    simp [h.unflagged, hlimit]
  have hselects : Selects w a (Settings.load w.files w.environment) (.limit n) :=
    .limit h.kind hfound
  have hanswers : ∀ k code, ∃ accepted,
      ((Selected.limit n).host w.machine).Answers k code accepted := Selected.answers_of nofun
  obtain ⟨r, hr⟩ := exists_report (p := p) hanswers
  have hrun : runCapacity w a (Settings.load w.files w.environment) =
      probeHost w a (Settings.load w.files w.environment) p (.limit n) := by
    simp only [runCapacity, hp.chosen, hselects.chosen]
  rw [run_eq_runWith h.arguments, runWith_capacity _ _ h.capacity, hrun]
  exact ⟨r, (reported_probeHost hr).noted _⟩

/-- What is configured is a number exactly if it spells an unsigned word, and then it is that word:
a reader with overflow checks at every digit agrees, and digits that are too many make no number,
whatever follows them. A run on the limit host with the limit left to the settings probes with this
very number, and without one it fails and asks no host. -/
theorem limit_setting_exact (s : Settings) (key v : String) (hv : s.get? key = some v) :
    (∀ n, s.getWord? key = some n ↔ SpellsWord v n) ∧
    s.getWord? key = checkedWord? v ∧
    (∀ sign digits rest, v.toList = sign ++ digits ++ rest → sign = [] ∨ sign = ['+'] →
      (∀ c ∈ digits, c.isDigit = true) → 2 ^ 64 - 1 < placeValue digits →
      s.getWord? key = none) ∧
    (key = "VKPROBE_HOST_LIMIT" →
      (∀ n, s.hostLimit? = some n ↔ SpellsWord v n) ∧
      ∀ w args a, TakesLimit w args a → Settings.load w.files w.environment = s →
        ((∀ n, ¬ SpellsWord v n) →
          (∃ e, Refused (run w args) e) ∧
          ∀ p, Probes w a p → Refused (run w args) .limitRequired) ∧
        ∀ n p, SpellsWord v n → Probes w a p →
          ∃ r, Reported w a s (run w args) p (.limit n) r) := by
  have hword : s.getWord? key = word? v := by
    rw [Settings.getWord?, hv, Option.bind_some]
  have hspells (n : Nat) : s.getWord? key = some n ↔ SpellsWord v n := by
    rw [hword, word?_eq_some_iff]
  refine ⟨hspells, hword.trans (checkedWord?_eq v).symm, ?_, ?_⟩
  · intro sign digits rest hsplit hsign hdigits hover
    rw [hword]
    exact word?_eq_none_of_prefix hsplit hsign hdigits hover
  · rintro rfl
    refine ⟨hspells, ?_⟩
    rintro w args a h rfl
    constructor
    · intro hnone
      have hlimit : (Settings.load w.files w.environment).hostLimit? = none := by
        apply Option.eq_none_iff_forall_ne_some.mpr
        intro n hn
        exact hnone n ((hspells n).mp hn)
      exact ⟨h.refused hlimit, fun p hp => h.required hp hlimit⟩
    · intro n p hn hp
      exact h.reported hp ((hspells n).mpr hn)

/-- The largest word, with a sign and zeros in front, and the number after it. -/
theorem limit_setting_exact_at_edge :
    let machine : Command.Machine := ⟨.error .notFound, .ok (), .ok (), fun _ => .error .notFound⟩
    let w (v : String) : World := ⟨⟨[], []⟩,
      ⟨[("HOME", "/h"), ("VKPROBE_HOST_LIMIT", v)], none⟩, some [], false, fun _ => machine⟩
    let s (v : String) : Settings := Settings.load (w v).files (w v).environment
    (∀ v, (s v).get? "VKPROBE_HOST_LIMIT" = some v) ∧
      (s "+00018446744073709551615").hostLimit? = some (2 ^ 64 - 1) ∧
      (s "18446744073709551616").hostLimit? = none ∧
      Refused (run (w "18446744073709551616") ["--host", "limit"]) .limitRequired := by
  intro machine w s
  have hkey : Settings.limitKey ∈ Settings.environmentKeys := by decide
  have hvalue : ∀ v, (s v).get? "VKPROBE_HOST_LIMIT" = some v := by
    intro v
    change (Settings.load (w v).files (w v).environment).get? Settings.limitKey = some v
    rw [Settings.load, Settings.loadFrom, Settings.get?_ofLayers, if_pos hkey]
    rfl
  have hlargest : SpellsWord "+00018446744073709551615" (2 ^ 64 - 1) :=
    ⟨['+'], "00018446744073709551615".toList, by decide, Or.inr rfl, by decide,
      List.all_eq_true.mp (by decide), by decide, by decide⟩
  have hover : ∀ n, ¬ SpellsWord "18446744073709551616" n := by
    intro n hn
    exact nomatch (word?_eq_some_iff.mpr hn : word? "18446744073709551616" = some n)
  let a : Arguments := { Arguments.empty with host := some .limit }
  have htakes : TakesLimit (w "18446744073709551616") ["--host", "limit"] a :=
    ⟨by decide, rfl, .flag rfl, rfl⟩
  have hinput : (w "18446744073709551616").input = some (Text.Utf8.encode "") := rfl
  have hprobes : Probes (w "18446744073709551616") a .standard := .blank rfl hinput (by decide)
  obtain ⟨-, -, -, hin⟩ := limit_setting_exact (s "+00018446744073709551615") _ _ (hvalue _)
  obtain ⟨-, -, -, hout⟩ := limit_setting_exact (s "18446744073709551616") _ _ (hvalue _)
  obtain ⟨hlimit, hrun⟩ := hout rfl
  have hnone : (s "18446744073709551616").hostLimit? = none :=
    Option.eq_none_iff_forall_ne_some.mpr fun n hn => hover n ((hlimit n).mp hn)
  have hrefused := ((hrun _ _ a htakes rfl).1 hover).2 _ hprobes
  exact ⟨hvalue, ((hin rfl).1 _).mpr hlargest, hnone, hrefused⟩

end CommandLine

end HostProbe
