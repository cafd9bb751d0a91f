import TopicTracker.JitteredIntervals
import TopicTracker.RecordPublishing

namespace TopicTracker.DhtRetries

open TopicTracker.RustValues
open TopicTracker.RustDuration
open TopicTracker.JitteredIntervals
open TopicTracker.RecordPublishing

/-- How one attempt ends under its timeout. -/
inductive Attempt
  | stored
  | failed
  | timedOut
deriving DecidableEq

/-- A `usize` has `w` bits. -/
structure DhtConfig (w : Nat) where
  retries : BitVec w := 3
  retryInterval : IntervalConfig := dhtDefaults

/-- What a call meets: attempt `i`, the reset before it, and the draw after it. -/
structure Environment where
  attempt : Nat → Attempt
  reset : Nat → Result Unit
  draw : Nat → BitVec 128

inductive Event
  | reset (result : Result Unit)
  | attempted (put : DhtPut) (outcome : Attempt)
  | slept (interval : Duration)
deriving DecidableEq

structure Outcome where
  dht : Option Unit
  events : List Event
  result : Result Unit
deriving DecidableEq

/-- `DhtActor::reset`: a client that was built replaces the old one. -/
def reset (dht : Option Unit) : Result Unit → Option Unit
  | .ok client => some client
  | .error _ => dht

variable {w : Nat}

/-- The `for` loop from attempt `i` on, with `n` attempts to go. -/
def attempts (config : DhtConfig w) (put : DhtPut) (env : Environment) :
    Nat → Nat → Option Unit → Outcome
  | _, 0, dht => ⟨dht, [], .ok ()⟩
  | _, _ + 1, none => ⟨none, [], .error (.bail "DHT not initialized")⟩
  | i, n + 1, some client =>
    let attempted := .attempted put (env.attempt i)
    if env.attempt i = .stored then ⟨some client, [attempted], .ok ()⟩
    else if BitVec.ofNat w i = config.retries then
      ⟨some client, [attempted], .error (.bail "failed to publish record")⟩
    else
      let dht := reset (some client) (env.reset (i + 1))
      match env.reset (i + 1) with
      | .error fault => ⟨dht, [attempted, .reset (.error fault)], .error fault⟩
      | .ok () =>
        match dhtRetryInterval config.retryInterval (env.draw i) with
        | .error fault => ⟨dht, [attempted, .reset (.ok ())], .error fault⟩
        | .ok interval =>
          let rest := attempts config put env (i + 1) n dht
          { rest with events := attempted :: .reset (.ok ()) :: .slept interval :: rest.events }

/-- The body of `put_mutable`; the end of its range wraps around. -/
def putMutable (config : DhtConfig w) (put : DhtPut) (env : Environment)
    (dht : Option Unit) : Outcome :=
  match dht with
  | some client => attempts config put env 0 (1 + config.retries).toNat (some client)
  | none =>
    match env.reset 0 with
    | .error fault => ⟨none, [.reset (.error fault)], .error fault⟩
    | .ok () =>
      let rest :=
        attempts config put env 0 (1 + config.retries).toNat (reset none (env.reset 0))
      { rest with events := .reset (.ok ()) :: rest.events }

def outcomes (events : List Event) : List Attempt :=
  events.filterMap fun
    | .attempted _ outcome => some outcome
    | _ => none

variable {config : DhtConfig w} {put : DhtPut} {env : Environment}

/-- What one iteration of the loop can do. -/
inductive Iterates (config : DhtConfig w) (put : DhtPut) (env : Environment) (i n : Nat) :
    Outcome → Prop
  | stored (hstored : env.attempt i = .stored) :
    Iterates config put env i n ⟨some (), [.attempted put (env.attempt i)], .ok ()⟩
  | exhausted (hattempt : env.attempt i ≠ .stored)
      (hlast : BitVec.ofNat w i = config.retries) :
    Iterates config put env i n ⟨some (), [.attempted put (env.attempt i)],
      .error (.bail "failed to publish record")⟩
  | resetFailed (hattempt : env.attempt i ≠ .stored)
      (hmore : BitVec.ofNat w i ≠ config.retries) (fault : Fault)
      (hreset : env.reset (i + 1) = .error fault) :
    Iterates config put env i n ⟨some (),
      [.attempted put (env.attempt i), .reset (.error fault)], .error fault⟩
  | overflowed (hattempt : env.attempt i ≠ .stored)
      (hmore : BitVec.ofNat w i ≠ config.retries) (hreset : env.reset (i + 1) = .ok ())
      (fault : Fault)
      (hinterval : dhtRetryInterval config.retryInterval (env.draw i) = .error fault) :
    Iterates config put env i n ⟨some (),
      [.attempted put (env.attempt i), .reset (.ok ())], .error fault⟩
  | retried (hattempt : env.attempt i ≠ .stored)
      (hmore : BitVec.ofNat w i ≠ config.retries) (hreset : env.reset (i + 1) = .ok ())
      (interval : Duration)
      (hinterval : dhtRetryInterval config.retryInterval (env.draw i) = .ok interval) :
    Iterates config put env i n { attempts config put env (i + 1) n (some ()) with
      events := .attempted put (env.attempt i) :: .reset (.ok ()) :: .slept interval ::
        (attempts config put env (i + 1) n (some ())).events }

theorem iterates_attempts (config : DhtConfig w) (put : DhtPut) (env : Environment)
    (i n : Nat) : Iterates config put env i n (attempts config put env i (n + 1) (some ())) := by
  rw [attempts]
  by_cases hattempt : env.attempt i = .stored
  · rw [if_pos hattempt]
    exact .stored hattempt
  · rw [if_neg hattempt]
    by_cases hlast : BitVec.ofNat w i = config.retries
    · rw [if_pos hlast]
      exact .exhausted hattempt hlast
    · rw [if_neg hlast]
      cases hreset : env.reset (i + 1) with
      | error fault => exact .resetFailed hattempt hlast fault hreset
      | ok client =>
          cases hinterval : dhtRetryInterval config.retryInterval (env.draw i) with
          | error fault => exact .overflowed hattempt hlast hreset fault hinterval
          | ok interval => exact .retried hattempt hlast hreset interval hinterval

/-- What is asked of attempts `i` to `retries`, with the resets from `first` on. -/
structure RetriesCorrectly (retries first i : Nat) (env : Environment) (outcome : Outcome) :
    Prop where
  made : outcomes outcome.events =
    (List.range' i (outcomes outcome.events).length).map env.attempt
  ok_iff : outcome.result = .ok () ↔ ∃ j, i ≤ j ∧ j ≤ retries ∧ env.attempt j = .stored ∧
    ∀ k, first ≤ k → k ≤ j → env.reset k = .ok ()
  stops : .stored ∉ (outcomes outcome.events).dropLast
  exhausts : (∀ j, i ≤ j → j ≤ retries → env.attempt j ≠ .stored) →
    (∀ k, first ≤ k → k ≤ retries → env.reset k = .ok ()) →
      i + (outcomes outcome.events).length = 1 + retries ∧
        ∃ text, outcome.result = .error (.bail text)
  sound : outcome.result = .ok () → .stored ∈ outcomes outcome.events

/-- The wait after attempt `i` is no longer than a `Duration` can be. -/
def WaitFits (config : DhtConfig w) (draw : Nat → BitVec 128) (i : Nat) : Prop :=
  config.retryInterval.baseInterval.nanos +
    jitterNanos config.retryInterval.maxJitter (draw i) < nanosLimit

theorem ofNat_eq_retries_iff {i : Nat} (h : i ≤ config.retries.toNat) :
    BitVec.ofNat w i = config.retries ↔ i = config.retries.toNat := by
  have hlt : i < 2 ^ w := h.trans_lt config.retries.isLt
  rw [← BitVec.toNat_inj, BitVec.toNat_ofNat, Nat.mod_eq_of_lt hlt]

theorem stored_not_mem_dropLast {attempt : Attempt} {later : List Attempt}
    (hattempt : attempt ≠ .stored) (hlater : .stored ∉ later.dropLast) :
    .stored ∉ (attempt :: later).dropLast := by
  cases later with
  | nil => exact List.not_mem_nil
  | cons next later =>
      rw [List.dropLast_cons_of_ne_nil (List.cons_ne_nil _ _), List.mem_cons, not_or]
      exact ⟨hattempt.symm, hlater⟩

theorem RetriesCorrectly.of_retry {retries i : Nat} {outcome : Outcome} {interval : Duration}
    (h : RetriesCorrectly retries (i + 2) (i + 1) env outcome)
    (hattempt : env.attempt i ≠ .stored) (hreset : env.reset (i + 1) = .ok ()) :
    RetriesCorrectly retries (i + 1) i env { outcome with
      events := .attempted put (env.attempt i) :: .reset (.ok ()) :: .slept interval ::
        outcome.events } := by
  have houtcomes : outcomes (.attempted put (env.attempt i) :: .reset (.ok ()) ::
      .slept interval :: outcome.events) = env.attempt i :: outcomes outcome.events := rfl
  have hresets : ∀ j, (∀ k, i + 2 ≤ k → k ≤ j → env.reset k = .ok ()) ↔
      ∀ k, i + 1 ≤ k → k ≤ j → env.reset k = .ok () := by
    intro j
    constructor
    · intro hlater k hk hkj
      rcases Nat.eq_or_lt_of_le hk with rfl | hlt
      · exact hreset
      · exact hlater k hlt hkj
    · intro hall k hk
      exact hall k (Nat.le_of_succ_le hk)
  refine ⟨?_, ?_, ?_, ?_, ?_⟩
  · change outcomes (.attempted put (env.attempt i) :: .reset (.ok ()) ::
      .slept interval :: outcome.events) = _
    rw [houtcomes, List.length_cons, List.range'_succ, List.map_cons, ← h.made]
  · change outcome.result = .ok () ↔ _
    rw [h.ok_iff]
    constructor
    · rintro ⟨j, hij, hj, hstored, hlater⟩
      exact ⟨j, Nat.le_of_succ_le hij, hj, hstored, (hresets j).mp hlater⟩
    · rintro ⟨j, hij, hj, hstored, hall⟩
      have hne : i ≠ j := by
        rintro rfl
        exact hattempt hstored
      exact ⟨j, Nat.lt_of_le_of_ne hij hne, hj, hstored, (hresets j).mpr hall⟩
  · exact stored_not_mem_dropLast hattempt h.stops
  · intro hfailed hall
    obtain ⟨hlength, herror⟩ := h.exhausts
      (fun j hij => hfailed j (Nat.le_of_succ_le hij)) ((hresets retries).mpr hall)
    refine ⟨?_, herror⟩
    rw [houtcomes, List.length_cons, ← hlength]
    omega
  · intro hok
    exact List.mem_cons_of_mem _ (h.sound hok)

/-- An attempt that is stored, is the last one, or meets a failing reset ends the call. -/
theorem RetriesCorrectly.of_last {retries i : Nat} {outcome : Outcome} (hi : i ≤ retries)
    (houtcomes : outcomes outcome.events = [env.attempt i])
    (hstored : outcome.result = .ok () ↔ env.attempt i = .stored)
    (hends : env.attempt i ≠ .stored →
      (i = retries ∧ ∃ text, outcome.result = .error (.bail text)) ∨
        i < retries ∧ env.reset (i + 1) ≠ .ok ()) :
    RetriesCorrectly retries (i + 1) i env outcome := by
  refine ⟨?_, ?_, ?_, ?_, ?_⟩
  · rw [houtcomes]
    rfl
  · rw [hstored]
    constructor
    · intro hattempt
      exact ⟨i, le_rfl, hi, hattempt, fun k hk hki => absurd hki (Nat.not_le.mpr hk)⟩
    · rintro ⟨j, hij, hj, hattempt, hresets⟩
      by_contra hfailed
      have hne : i ≠ j := by
        rintro rfl
        exact hfailed hattempt
      rcases hends hfailed with ⟨hlast, -⟩ | ⟨-, hreset⟩
      · omega
      · exact hreset (hresets (i + 1) le_rfl (Nat.lt_of_le_of_ne hij hne))
  · rw [houtcomes]
    exact List.not_mem_nil
  · intro hfailed hresets
    rcases hends (hfailed i le_rfl hi) with ⟨hlast, herror⟩ | ⟨hlt, hreset⟩
    · refine ⟨?_, herror⟩
      rw [houtcomes, hlast, List.length_singleton, Nat.add_comm]
    · exact absurd (hresets (i + 1) le_rfl hlt) hreset
  · intro hok
    rw [houtcomes, hstored.mp hok]
    exact List.mem_singleton_self _

theorem attempts_correct {i n : Nat} (hrange : i + n = config.retries.toNat)
    (hfits : ∀ j, i ≤ j → j < config.retries.toNat → WaitFits config env.draw j) :
    RetriesCorrectly config.retries.toNat (i + 1) i env
      (attempts config put env i (n + 1) (some ())) := by
  induction n generalizing i with
  | zero =>
      have hlast : BitVec.ofNat w i = config.retries := (ofNat_eq_retries_iff hrange.le).mpr hrange
      have hiterates := iterates_attempts config put env i 0
      generalize attempts config put env i (0 + 1) (some ()) = outcome at hiterates ⊢
      cases hiterates with
      | stored hstored =>
          exact .of_last hrange.le rfl (iff_of_true rfl hstored) (absurd hstored)
      | exhausted hattempt _ =>
          exact .of_last hrange.le rfl (iff_of_false (by simp) hattempt)
            fun _ => .inl ⟨hrange, _, rfl⟩
      | resetFailed _ hmore _ _ => exact absurd hlast hmore
      | overflowed _ hmore _ _ _ => exact absurd hlast hmore
      | retried _ hmore _ _ _ => exact absurd hlast hmore
  | succ n ih =>
      have hlt : i < config.retries.toNat := by omega
      have hmore : BitVec.ofNat w i ≠ config.retries :=
        fun hlast => absurd ((ofNat_eq_retries_iff hlt.le).mp hlast) (Nat.ne_of_lt hlt)
      have hiterates := iterates_attempts config put env i (n + 1)
      generalize attempts config put env i (n + 1 + 1) (some ()) = outcome at hiterates ⊢
      cases hiterates with
      | stored hstored =>
          exact .of_last hlt.le rfl (iff_of_true rfl hstored) (absurd hstored)
      | exhausted _ hlast => exact absurd hlast hmore
      | resetFailed hattempt _ fault hreset =>
          refine .of_last hlt.le rfl (iff_of_false (by simp) hattempt) fun _ => .inr ⟨hlt, ?_⟩
          rw [hreset]
          simp
      | overflowed _ _ _ fault hinterval =>
          obtain ⟨interval, hok⟩ :=
            (jitteredInterval_eq_ok_iff _ _ _).mpr (hfits i le_rfl hlt)
          cases hinterval.symm.trans hok
      | retried hattempt _ hreset interval _ =>
          have hlater := ih (i := i + 1) (by omega)
            fun j hj => hfits j (Nat.le_of_succ_le hj)
          exact hlater.of_retry hattempt hreset

theorem waitFits_of_bail {i n : Nat} (hrange : i + n = config.retries.toNat)
    (hresets : ∀ k, env.reset k = .ok ()) {text : String}
    (hresult : (attempts config put env i (n + 1) (some ())).result = .error (.bail text)) :
    ∀ j, i ≤ j → j < config.retries.toNat → WaitFits config env.draw j := by
  induction n generalizing i with
  | zero =>
      intro j hij hj
      omega
  | succ n ih =>
      intro j hij hj
      have hlt : i < config.retries.toNat := by omega
      have hiterates := iterates_attempts config put env i (n + 1)
      generalize attempts config put env i (n + 1 + 1) (some ()) = outcome at hiterates hresult
      cases hiterates with
      | stored hstored => cases hresult
      | exhausted _ hlast => exact absurd ((ofNat_eq_retries_iff hlt.le).mp hlast) hlt.ne
      | resetFailed _ _ fault hreset => cases (hresets (i + 1)).symm.trans hreset
      | overflowed _ _ _ fault hinterval =>
          obtain rfl : fault = .bail text := by simpa using hresult
          rcases jitteredInterval_cases config.retryInterval.baseInterval
            config.retryInterval.maxJitter (env.draw i) with ⟨next, hnext, -⟩ | ⟨-, hpanics⟩
          · cases hinterval.symm.trans hnext
          · cases hinterval.symm.trans hpanics
      | retried _ _ _ interval hinterval =>
          rcases Nat.eq_or_lt_of_le hij with rfl | hlater
          · exact (jitteredInterval_eq_ok_iff _ _ _).mp ⟨interval, hinterval⟩
          · exact ih (by omega) hresult j hlater hj

def firstReset : Option Unit → Nat
  | none => 0
  | some _ => 1

theorem toNat_one_add (retries : BitVec w) :
    (1 + retries).toNat = (retries.toNat + 1) % 2 ^ w := by
  rw [BitVec.toNat_add, Nat.add_comm]
  simp

theorem toNat_one_add_allOnes : (1 + BitVec.allOnes w).toNat = 0 := by
  have hpos : 0 < 2 ^ w := Nat.two_pow_pos w
  rw [toNat_one_add, BitVec.toNat_allOnes, Nat.sub_add_cancel hpos, Nat.mod_self]

theorem toNat_one_add_of_ne {retries : BitVec w} (h : retries ≠ BitVec.allOnes w) :
    (1 + retries).toNat = retries.toNat + 1 := by
  have hne : retries.toNat ≠ 2 ^ w - 1 := by
    intro heq
    exact h (BitVec.eq_of_toNat_eq (heq.trans BitVec.toNat_allOnes.symm))
  have hlt := retries.isLt
  rw [toNat_one_add, Nat.mod_eq_of_lt (by omega)]

theorem RetriesCorrectly.of_reset {retries : Nat} {outcome : Outcome}
    (h : RetriesCorrectly retries 1 0 env outcome) (hreset : env.reset 0 = .ok ()) :
    RetriesCorrectly retries 0 0 env
      { outcome with events := .reset (.ok ()) :: outcome.events } := by
  have hresets : ∀ j, (∀ k, 1 ≤ k → k ≤ j → env.reset k = .ok ()) ↔
      ∀ k, 0 ≤ k → k ≤ j → env.reset k = .ok () := by
    intro j
    constructor
    · intro hlater k _ hkj
      rcases Nat.eq_zero_or_pos k with rfl | hpos
      · exact hreset
      · exact hlater k hpos hkj
    · intro hall k _
      exact hall k (Nat.zero_le k)
  refine ⟨h.made, ?_, h.stops, ?_, h.sound⟩
  · change outcome.result = .ok () ↔ _
    rw [h.ok_iff]
    simp only [hresets]
  · intro hfailed hall
    exact h.exhausts hfailed ((hresets retries).mpr hall)

theorem RetriesCorrectly.of_reset_error (retries : Nat) {fault : Fault}
    (hreset : env.reset 0 = .error fault) :
    RetriesCorrectly retries 0 0 env ⟨none, [.reset (.error fault)], .error fault⟩ := by
  have hfirst : ∀ j, ¬ ∀ k, 0 ≤ k → k ≤ j → env.reset k = .ok () := by
    intro j hall
    cases hreset.symm.trans (hall 0 le_rfl (Nat.zero_le j))
  refine ⟨rfl, ?_, List.not_mem_nil, ?_, ?_⟩
  · refine iff_of_false (by simp) ?_
    rintro ⟨j, -, -, -, hall⟩
    exact hfirst j hall
  · intro _ hall
    exact absurd hall (hfirst retries)
  · intro hok
    cases hok

theorem putMutable_correct {dht : Option Unit} (hretries : config.retries ≠ BitVec.allOnes w)
    (hfits : ∀ j, j < config.retries.toNat → WaitFits config env.draw j) :
    RetriesCorrectly config.retries.toNat (firstReset dht) 0 env
      (putMutable config put env dht) := by
  have hloop : RetriesCorrectly config.retries.toNat 1 0 env
      (attempts config put env 0 (1 + config.retries).toNat (some ())) := by
    rw [toNat_one_add_of_ne hretries]
    exact attempts_correct (Nat.zero_add _) fun j _ => hfits j
  cases dht with
  | some client => exact hloop
  | none =>
      rw [putMutable]
      cases hreset : env.reset 0 with
      | error fault => exact .of_reset_error _ hreset
      | ok client => exact hloop.of_reset hreset

theorem putMutable_allOnes (hretries : config.retries = BitVec.allOnes w)
    (dht : Option Unit) (hreset : env.reset 0 = .ok ()) :
    (putMutable config put env dht).result = .ok () ∧
      outcomes (putMutable config put env dht).events = [] := by
  have hloop : attempts config put env 0 (1 + config.retries).toNat (some ()) =
      ⟨some (), [], .ok ()⟩ := by
    rw [hretries, toNat_one_add_allOnes, attempts]
  cases dht with
  | some client =>
      rw [putMutable, hloop]
      exact ⟨rfl, rfl⟩
  | none =>
      rw [putMutable, hreset, reset, hloop]
      exact ⟨rfl, rfl⟩

def unreachable (draw : Nat → BitVec 128) : Environment :=
  ⟨fun _ => .timedOut, fun _ => .ok (), draw⟩

theorem putMutable_unreachable_result (put : DhtPut) (draw : Nat → BitVec 128)
    (dht : Option Unit) : (putMutable config put (unreachable draw) dht).result =
      (attempts config put (unreachable draw) 0 (1 + config.retries).toNat (some ())).result := by
  cases dht with
  | some client => rfl
  | none => rfl

def emptyPut : DhtPut := ⟨⟨zeroBytes 32, zeroBytes 32⟩, ⟨0, []⟩⟩

/-- Whatever the attempts and the resets do, a put returns as it should, if and only if
its number of attempts is no overflow and neither is a wait it may come to. -/
theorem putMutable_correct_iff (config : DhtConfig w) (draw : Nat → BitVec 128)
    (dht : Option Unit) :
    (∀ put attempt reset, RetriesCorrectly config.retries.toNat (firstReset dht) 0
        ⟨attempt, reset, draw⟩ (putMutable config put ⟨attempt, reset, draw⟩ dht)) ↔
      config.retries ≠ BitVec.allOnes w ∧
        ∀ i, i < config.retries.toNat → WaitFits config draw i := by
  constructor
  · intro h
    have hcorrect : RetriesCorrectly config.retries.toNat (firstReset dht) 0 (unreachable draw)
        (putMutable config emptyPut (unreachable draw) dht) := h emptyPut _ _
    have hretries : config.retries ≠ BitVec.allOnes w := by
      intro hlargest
      have hreset : (unreachable draw).reset 0 = .ok () := rfl
      obtain ⟨hok, hnone⟩ := putMutable_allOnes hlargest dht hreset
      have hstored := hcorrect.sound hok
      rw [hnone] at hstored
      exact absurd hstored List.not_mem_nil
    refine ⟨hretries, ?_⟩
    obtain ⟨-, text, hbail⟩ := hcorrect.exhausts
      (fun j _ _ hstored => by cases hstored) fun k _ _ => rfl
    rw [putMutable_unreachable_result, toNat_one_add_of_ne hretries] at hbail
    intro i hi
    exact waitFits_of_bail (Nat.zero_add _) (fun k => rfl) hbail i (Nat.zero_le i) hi
  · rintro ⟨hretries, hfits⟩ put attempt reset
    exact putMutable_correct hretries hfits

/-- A call with `usize::MAX` retries succeeds without an attempt. -/
theorem largest_retries_attempts_nothing :
    putMutable (⟨BitVec.allOnes 64, dhtDefaults⟩ : DhtConfig 64) emptyPut
      (unreachable fun _ => 0) none = ⟨some (), [.reset (.ok ())], .ok ()⟩ := by
  rfl

end TopicTracker.DhtRetries
