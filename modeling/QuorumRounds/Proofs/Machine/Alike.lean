import QuorumRounds.Proofs.Machine.Steps

/-! # Machines that cannot be told apart

Two rounds are *twins* when whatever a machine asks of them gets the same answer and leaves twins
behind; their results are twin stores, and rounds that are built from twin stores are twins
(`Twins`). Two machines are alike when their current rounds are twins and their histories are plainly
the same (`Alike`). Every step then gives the same answer on both, and leaves them alike
(`Twins.congruent`).

If twins take two transactions of different senders in either order and are twins again
(`Commuting`), machines that are alike stay so when two transactions change places
(`Commuting.orderless`).

Being twins is symmetric and transitive, and so is being alike. It need not be reflexive: a machine
may be in a round of which nothing is known. -/

namespace QuorumRounds
set_option autoImplicit false

variable {ρ ε κ σ P : Type} [Ord ρ] [Ord ε] [Ord κ] [RoundBehavior σ P ε]

namespace Machine
open Checked (Both SameAnswer)

/-- What is plainly the same in twin stores is said by `plain`. -/
structure Twins (app : Application ρ ε κ σ) (config : Config ρ) (rounds : σ → σ → Prop)
    (stores : Store → Store → Prop) (plain : Store → Store) : Prop where
  symm : ∀ {a b}, rounds a b → rounds b a
  trans : ∀ {a b c}, rounds a b → rounds b c → rounds a c
  plain_eq : ∀ {s t}, stores s t → plain s = plain t
  store : ∀ {a b}, rounds a b → stores (RoundBehavior.store a) (RoundBehavior.store b)
  build : ∀ (machine : Machine ρ ε κ σ) (kind : ρ) {s t}, machine.app = app →
    machine.config = config → stores s t → ∃ a b, machine.build kind s = .ok a ∧
      machine.build kind t = .ok b ∧ rounds a b
  check : ∀ {a b} (tx : Transaction P), rounds a b →
    RoundBehavior.check a tx = RoundBehavior.check b tx
  process : ∀ {a b} {tx : Transaction P}, rounds a b → RoundBehavior.check a tx = .ok (.ok ()) →
    ∃ c d, RoundBehavior.process a tx = .ok (.ok (), c) ∧
      RoundBehavior.process b tx = .ok (.ok (), d) ∧ rounds c d
  endBlock : ∀ {a b}, rounds a b →
    Both (fun x y => Option.Rel (fun u v => stores u.1 v.1 ∧ u.2 = v.2) x.1 y.1 ∧ rounds x.2 y.2)
      (RoundBehavior.endBlock a) (RoundBehavior.endBlock b)

variable {app : Application ρ ε κ σ} {config : Config ρ} {rounds : σ → σ → Prop}
  {stores : Store → Store → Prop} {plain : Store → Store} {a b c : Machine ρ ε κ σ}

/-- The rounds that have ended, with what is plain of the stores that they handed on. -/
def plainHistory (plain : Store → Store) (history : List (ρ × Store)) : List (ρ × Store) :=
  history.map fun e => (e.1, plain e.2)

/-- Both machines have stopped, or are in rounds of one kind that are twins. -/
def SameRound (rounds : σ → σ → Prop) (current other : Option (ρ × σ)) : Prop :=
  current = none ∧ other = none ∨
    ∃ kind a b, current = some (kind, a) ∧ other = some (kind, b) ∧ rounds a b

/-- The machines differ in their current rounds and in the stores of the rounds that have ended. -/
inductive Alike (app : Application ρ ε κ σ) (config : Config ρ) (rounds : σ → σ → Prop)
    (plain : Store → Store) (machine : Machine ρ ε κ σ) : Machine ρ ε κ σ → Prop where
  | mk (current : Option (ρ × σ)) (lastStore : Store) (history : List (ρ × Store))
    (happ : machine.app = app) (hconfig : machine.config = config)
    (hcurrent : SameRound rounds machine.current current)
    (hlast : plain machine.lastStore = plain lastStore)
    (hhistory : plainHistory plain machine.history = plainHistory plain history) :
    Alike app config rounds plain machine
      { machine with current := current, lastStore := lastStore, history := history }

/-- No step tells machines apart that are alike. -/
structure Congruent (alike : Machine ρ ε κ σ → Machine ρ ε κ σ → Prop) : Prop where
  symm : ∀ {a b}, alike a b → alike b a
  trans : ∀ {a b c}, alike a b → alike b c → alike a c
  updateTime : ∀ {a b} (now : Duration), alike a b →
    Both (SameAnswer alike) (a.updateTime now) (b.updateTime now)
  checkTransaction : ∀ {a b} (tx : Transaction P), alike a b →
    a.checkTransaction tx = b.checkTransaction tx
  processTransaction : ∀ {a b} {tx : Transaction P}, alike a b →
    a.checkTransaction tx = .ok (.ok ()) →
    ∃ c d, a.processTransaction tx = .ok (.ok (), c) ∧ b.processTransaction tx = .ok (.ok (), d) ∧
      alike c d
  endBlock : ∀ {a b}, alike a b → Both (SameAnswer alike) a.endBlock b.endBlock

namespace Alike

theorem symm (htwins : Twins app config rounds stores plain)
    (h : Alike app config rounds plain a b) : Alike app config rounds plain b a := by
  cases h with
  | mk current lastStore history happ hconfig hcurrent hlast hhistory =>
    refine Alike.mk a.current a.lastStore a.history happ hconfig ?_ hlast.symm hhistory.symm
    rcases hcurrent with ⟨ha, hb⟩ | ⟨kind, x, y, ha, hb, hrounds⟩
    · exact .inl ⟨hb, ha⟩
    · exact .inr ⟨kind, y, x, hb, ha, htwins.symm hrounds⟩

theorem trans (htwins : Twins app config rounds stores plain)
    (hab : Alike app config rounds plain a b) (hbc : Alike app config rounds plain b c) :
    Alike app config rounds plain a c := by
  cases hab with
  | mk current lastStore history happ hconfig hcurrent hlast hhistory =>
    cases hbc with
    | mk current' lastStore' history' _ _ hcurrent' hlast' hhistory' =>
      refine Alike.mk current' lastStore' history' happ hconfig ?_ (hlast.trans hlast')
        (hhistory.trans hhistory')
      rcases hcurrent with ⟨ha, rfl⟩ | ⟨kind, x, y, ha, rfl, hxy⟩
      · rcases hcurrent' with ⟨_, hc⟩ | ⟨_, _, _, hb, _⟩
        · exact .inl ⟨ha, hc⟩
        · cases hb
      · rcases hcurrent' with ⟨hb, _⟩ | ⟨_, _, z, hb, hc, hyz⟩
        · cases hb
        · cases hb
          exact .inr ⟨kind, x, z, ha, hc, htwins.trans hxy hyz⟩

/-! ## Entering and leaving rounds -/

omit [RoundBehavior σ P ε] in
theorem scheduleTimeouts (h : Alike app config rounds plain a b) (now : Duration) :
    Both (Alike app config rounds plain) (a.scheduleTimeouts now) (b.scheduleTimeouts now) := by
  cases h with
  | mk current lastStore history happ hconfig hcurrent hlast hhistory =>
    rcases hcurrent with ⟨ha, rfl⟩ | ⟨kind, x, y, ha, rfl, hrounds⟩
    · simp only [Machine.scheduleTimeouts, ha]
      exact .ok (Alike.mk none lastStore history happ hconfig (.inl ⟨rfl, rfl⟩) hlast hhistory)
    · simp only [Machine.scheduleTimeouts, ha]
      apply Both.map (Both.of_eq rfl fun _ _ => rfl)
      rintro timeouts _ rfl
      exact Alike.mk (some (kind, y)) lastStore history happ hconfig
        (.inr ⟨kind, x, y, rfl, rfl, hrounds⟩) hlast hhistory

omit [RoundBehavior σ P ε] in
theorem enter {x y : σ} (h : Alike app config rounds plain a b) (kind : ρ) (hrounds : rounds x y) :
    Both (Alike app config rounds plain) (a.enter kind x) (b.enter kind y) := by
  cases h with
  | mk current lastStore history happ hconfig hcurrent hlast hhistory =>
    have hentered : Alike app config rounds plain
        { a with current := some (kind, x), timeouts := ∅ }
        { a with
          current := some (kind, y), lastStore := lastStore, history := history, timeouts := ∅ } :=
      Alike.mk (some (kind, y)) lastStore history happ hconfig
        (.inr ⟨kind, x, y, rfl, rfl, hrounds⟩) hlast hhistory
    cases hstamp : a.lastTimestamp with
    | none =>
      simp only [Machine.enter, hstamp]
      exact .ok (Alike.mk (some (kind, y)) lastStore history happ hconfig
        (.inr ⟨kind, x, y, rfl, rfl, hrounds⟩) hlast hhistory)
    | some now =>
      have hscheduled := hentered.scheduleTimeouts now
      simp only [hstamp] at hscheduled
      simp only [Machine.enter, hstamp]
      exact hscheduled

theorem leave {s t : Store} (htwins : Twins app config rounds stores plain)
    (h : Alike app config rounds plain a b) (kind : ρ) (hstores : stores s t) :
    Alike app config rounds plain (a.leave kind s) (b.leave kind t) := by
  cases h with
  | mk current lastStore history happ hconfig hcurrent hlast hhistory =>
    refine Alike.mk none t (history ++ [(kind, t)]) happ hconfig (.inl ⟨rfl, rfl⟩)
      (htwins.plain_eq hstores) ?_
    rw [plainHistory, plainHistory] at hhistory
    simp only [Machine.leave, plainHistory, List.map_append, List.map_singleton, hhistory,
      htwins.plain_eq hstores]

omit [RoundBehavior σ P ε] in
theorem with_height (h : Alike app config rounds plain a b) (height : UInt64) :
    Alike app config rounds plain { a with height := height } { b with height := height } := by
  cases h with
  | mk current lastStore history happ hconfig hcurrent hlast hhistory =>
    exact Alike.mk current lastStore history happ hconfig hcurrent hlast hhistory

omit [RoundBehavior σ P ε] in
theorem with_timeouts (h : Alike app config rounds plain a b) (timeouts : Timeouts ε) :
    Alike app config rounds plain { a with timeouts := timeouts } { b with timeouts := timeouts } := by
  cases h with
  | mk current lastStore history happ hconfig hcurrent hlast hhistory =>
    exact Alike.mk current lastStore history happ hconfig hcurrent hlast hhistory

omit [RoundBehavior σ P ε] in
theorem with_timestamp (h : Alike app config rounds plain a b) (now : Duration) :
    Alike app config rounds plain { a with lastTimestamp := some now }
      { b with lastTimestamp := some now } := by
  cases h with
  | mk current lastStore history happ hconfig hcurrent hlast hhistory =>
    exact Alike.mk current lastStore history happ hconfig hcurrent hlast hhistory

omit [RoundBehavior σ P ε] in
theorem with_current {x y : σ} (h : Alike app config rounds plain a b) (kind : ρ)
    (hrounds : rounds x y) :
    Alike app config rounds plain { a with current := some (kind, x) }
      { b with current := some (kind, y) } := by
  cases h with
  | mk current lastStore history happ hconfig hcurrent hlast hhistory =>
    exact Alike.mk (some (kind, y)) lastStore history happ hconfig
      (.inr ⟨kind, x, y, rfl, rfl, hrounds⟩) hlast hhistory

/-! ## Steps -/

theorem processEvent (htwins : Twins app config rounds stores plain)
    (h : Alike app config rounds plain a b) (event : ε) {s t : Option Store}
    (hresult : Option.Rel stores s t) :
    Both (SameAnswer (Alike app config rounds plain)) (a.processEvent event s)
      (b.processEvent event t) := by
  have halike := h
  cases h with
  | mk current lastStore history happ hconfig hcurrent hlast hhistory =>
    rcases hcurrent with ⟨ha, rfl⟩ | ⟨kind, x, y, ha, rfl, hrounds⟩
    · simp only [Machine.processEvent, ha]
      exact .ok ⟨rfl, halike⟩
    · have hstores : stores (s.getD (RoundBehavior.store x)) (t.getD (RoundBehavior.store y)) := by
        cases hresult with
        | none => exact htwins.store hrounds
        | some h => exact h
      have hleft := halike.leave htwins kind hstores
      simp only [Machine.processEvent, ha]
      cases hnext : a.app.transitions.next? kind event with
      | none => exact .ok ⟨rfl, hleft⟩
      | some next =>
        obtain ⟨successor, other, hbuild, hbuild', htwin⟩ := htwins.build a next happ hconfig hstores
        have hother : Machine.build { a with
            current := some (kind, y), lastStore := lastStore, history := history } next
            (t.getD (RoundBehavior.store y)) = .ok other := hbuild'
        simp only [hbuild, hother]
        apply Both.bind (Both.of_eq rfl fun _ _ => rfl)
        rintro height _ rfl
        apply Both.bind ((hleft.with_height height).enter next htwin)
        intro entered entered' hentered
        exact .ok ⟨rfl, hentered⟩

theorem fire (htwins : Twins app config rounds stores plain)
    (h : Alike app config rounds plain a b) (event : ε) {s t : Option Store}
    (hresult : Option.Rel stores s t) :
    Both (SameAnswer (Alike app config rounds plain)) (a.fire event s) (b.fire event t) := by
  apply Both.bind (h.processEvent htwins event hresult)
  rintro ⟨answer, after⟩ ⟨_, after'⟩ ⟨rfl, hafter⟩
  exact .ok ⟨rfl, hafter⟩

theorem updateTime (htwins : Twins app config rounds stores plain)
    (h : Alike app config rounds plain a b) (now : Duration) :
    Both (SameAnswer (Alike app config rounds plain)) (a.updateTime now) (b.updateTime now) := by
  have hexpire : ∀ {m n : Machine ρ ε κ σ}, Alike app config rounds plain m n →
      Both (SameAnswer (Alike app config rounds plain)) (m.expire now) (n.expire now) := by
    intro m n hmn
    have hsame : n.timeouts = m.timeouts := by
      cases hmn
      rfl
    rw [expire, expire, hsame]
    split
    · exact .ok ⟨rfl, hmn⟩
    · exact (hmn.with_timeouts _).fire htwins _ .none
  have hawaits : b.awaitsTime = a.awaitsTime := by
    cases h
    rfl
  have hstamped := h.with_timestamp now
  rw [updateTime_eq, updateTime_eq]
  by_cases hwaits : a.awaitsTime = true
  · rw [if_pos hwaits, if_pos (hawaits.trans hwaits)]
    exact Both.bind (hstamped.scheduleTimeouts now) fun m n hmn => hexpire hmn
  · rw [if_neg hwaits, if_neg (by rwa [hawaits])]
    exact hexpire hstamped

theorem checkTransaction (htwins : Twins app config rounds stores plain)
    (h : Alike app config rounds plain a b) (tx : Transaction P) :
    a.checkTransaction tx = b.checkTransaction tx := by
  cases h with
  | mk current lastStore history happ hconfig hcurrent hlast hhistory =>
    rcases hcurrent with ⟨ha, rfl⟩ | ⟨kind, x, y, ha, rfl, hrounds⟩
    · simp only [Machine.checkTransaction, ha]
    · simp only [Machine.checkTransaction, ha, htwins.check tx hrounds]

/-- A transaction that passes is taken by both. -/
theorem processTransaction {tx : Transaction P} (htwins : Twins app config rounds stores plain)
    (h : Alike app config rounds plain a b) (hcheck : a.checkTransaction tx = .ok (.ok ())) :
    ∃ c d, a.processTransaction tx = .ok (.ok (), c) ∧ b.processTransaction tx = .ok (.ok (), d) ∧
      Alike app config rounds plain c d := by
  have halike := h
  cases h with
  | mk current lastStore history happ hconfig hcurrent hlast hhistory =>
    rcases hcurrent with ⟨ha, rfl⟩ | ⟨kind, x, y, ha, rfl, hrounds⟩
    · simp only [Machine.checkTransaction, ha] at hcheck
      cases hcheck
    · have hpass := checkTransaction_eq_ok ha hcheck
      obtain ⟨c, d, hprocess, hprocess', htwin⟩ := htwins.process hrounds hpass
      simp only [Machine.processTransaction, ha, hprocess, hprocess', Checked.ok_bind]
      exact ⟨_, _, rfl, rfl, halike.with_current kind htwin⟩

theorem endBlock (htwins : Twins app config rounds stores plain)
    (h : Alike app config rounds plain a b) :
    Both (SameAnswer (Alike app config rounds plain)) a.endBlock b.endBlock := by
  have halike := h
  cases h with
  | mk current lastStore history happ hconfig hcurrent hlast hhistory =>
    rcases hcurrent with ⟨ha, rfl⟩ | ⟨kind, x, y, ha, rfl, hrounds⟩
    · simp only [Machine.endBlock, ha]
      exact .ok ⟨rfl, halike⟩
    · simp only [Machine.endBlock, ha]
      apply Both.bind (htwins.endBlock hrounds)
      rintro ⟨outcome, asked⟩ ⟨outcome', asked'⟩ ⟨houtcome, htwin⟩
      have hasked := halike.with_current kind htwin
      cases houtcome with
      | none => exact .ok ⟨rfl, hasked⟩
      | @some result result' hresult =>
        obtain ⟨store, event⟩ := result
        obtain ⟨store', event'⟩ := result'
        obtain ⟨hstores, rfl⟩ := hresult
        exact hasked.fire htwins event (.some hstores)

/-! ## Reads -/

omit [RoundBehavior σ P ε] in
theorem currentKind_eq (h : Alike app config rounds plain a b) : a.currentKind = b.currentKind := by
  cases h with
  | mk current lastStore history happ hconfig hcurrent hlast hhistory =>
    rcases hcurrent with ⟨ha, rfl⟩ | ⟨kind, x, y, ha, rfl, hrounds⟩
    · simp only [currentKind, ha]
    · simp only [currentKind, ha, Option.map_some]

omit [RoundBehavior σ P ε] in
theorem height_eq (h : Alike app config rounds plain a b) : a.height = b.height := by
  cases h
  rfl

omit [RoundBehavior σ P ε] in
theorem previousRounds_eq (h : Alike app config rounds plain a b) :
    a.previousRounds = b.previousRounds := by
  cases h with
  | mk current lastStore history happ hconfig hcurrent hlast hhistory =>
    have hkinds := congrArg (List.map Prod.fst) hhistory
    simpa [plainHistory, previousRounds, Function.comp_def] using hkinds

omit [RoundBehavior σ P ε] in
theorem roundResults_eq (h : Alike app config rounds plain a b) :
    a.roundResults.map plain = b.roundResults.map plain := by
  cases h with
  | mk current lastStore history happ hconfig hcurrent hlast hhistory =>
    have hresults := congrArg (List.map Prod.snd) hhistory
    simpa [plainHistory, roundResults, Function.comp_def] using hresults

theorem plain_store_eq (htwins : Twins app config rounds stores plain)
    (h : Alike app config rounds plain a b) : plain a.store = plain b.store := by
  cases h with
  | mk current lastStore history happ hconfig hcurrent hlast hhistory =>
    rcases hcurrent with ⟨ha, rfl⟩ | ⟨kind, x, y, ha, rfl, hrounds⟩
    · simp only [Machine.store, ha]
      exact hlast
    · simp only [Machine.store, ha]
      exact htwins.plain_eq (htwins.store hrounds)

end Alike

theorem Twins.congruent (htwins : Twins app config rounds stores plain) :
    Congruent (Alike app config rounds plain) where
  symm h := h.symm htwins
  trans hab hbc := hab.trans htwins hbc
  updateTime now h := h.updateTime htwins now
  checkTransaction tx h := h.checkTransaction htwins tx
  processTransaction h hcheck := h.processTransaction htwins hcheck
  endBlock h := h.endBlock htwins

/-! ## Transactions of different senders -/

/-- The checks of transactions overflow in one operation only. -/
structure Commuting (rounds : σ → σ → Prop) : Prop where
  overflow : ∀ {a} {tx : Transaction P} {e}, rounds a a → RoundBehavior.check a tx = .error e →
    e = .add
  check_after : ∀ {a b} {tx other : Transaction P}, rounds a a → tx.sender ≠ other.sender →
    RoundBehavior.check a tx = .ok (.ok ()) → RoundBehavior.process a tx = .ok (.ok (), b) →
    RoundBehavior.check b other = RoundBehavior.check a other
  process_comm : ∀ {a b c d e} {tx other : Transaction P}, rounds a a → tx.sender ≠ other.sender →
    RoundBehavior.check a tx = .ok (.ok ()) → RoundBehavior.check a other = .ok (.ok ()) →
    RoundBehavior.process a tx = .ok (.ok (), b) → RoundBehavior.process b other = .ok (.ok (), c) →
    RoundBehavior.process a other = .ok (.ok (), d) → RoundBehavior.process d tx = .ok (.ok (), e) →
    rounds c e

/-- Whether a machine takes a transaction does not depend on transactions of other senders, and two
of different senders can be taken in either order. -/
structure Orderless (alike : Machine ρ ε κ σ → Machine ρ ε κ σ → Prop) : Prop where
  overflow : ∀ {a} {tx : Transaction P} {e}, alike a a → a.checkTransaction tx = .error e → e = .add
  check_after : ∀ {a b} {tx other : Transaction P}, alike a a → tx.sender ≠ other.sender →
    a.checkTransaction tx = .ok (.ok ()) → a.processTransaction tx = .ok (.ok (), b) →
    b.checkTransaction other = a.checkTransaction other
  process_comm : ∀ {a b c d e} {tx other : Transaction P}, alike a a → tx.sender ≠ other.sender →
    a.checkTransaction tx = .ok (.ok ()) → a.checkTransaction other = .ok (.ok ()) →
    a.processTransaction tx = .ok (.ok (), b) → b.processTransaction other = .ok (.ok (), c) →
    a.processTransaction other = .ok (.ok (), d) → d.processTransaction tx = .ok (.ok (), e) →
    alike c e

omit [RoundBehavior σ P ε] in
theorem Alike.sameRound (h : Alike app config rounds plain a b) :
    SameRound rounds a.current b.current := by
  cases h with
  | mk _ _ _ _ _ hcurrent => exact hcurrent

/-- A machine that takes a transaction is in a round, which takes it. -/
theorem exists_round_of_check (h : Alike app config rounds plain a a) {tx : Transaction P}
    (hcheck : a.checkTransaction tx = .ok (.ok ())) :
    ∃ kind round, a.current = some (kind, round) ∧ rounds round round ∧
      RoundBehavior.check round tx = .ok (.ok ()) := by
  rcases h.sameRound with ⟨ha, _⟩ | ⟨kind, round, _, ha, ha', hself⟩
  · simp only [checkTransaction, ha] at hcheck
    cases hcheck
  · rw [ha] at ha'
    cases ha'
    exact ⟨kind, round, ha, hself, checkTransaction_eq_ok ha hcheck⟩

theorem processed {kind : ρ} {round : σ} {tx : Transaction P} (ha : a.current = some (kind, round))
    (hprocess : a.processTransaction tx = .ok (.ok (), b)) :
    ∃ moved, RoundBehavior.process round tx = .ok (.ok (), moved) ∧
      b = { a with current := some (kind, moved) } := by
  obtain ⟨taken, moved, hmoved, hanswer, hafter⟩ := processTransaction_eq_ok ha hprocess
  cases taken with
  | error e => cases hanswer
  | ok _ => exact ⟨moved, hmoved, hafter⟩

theorem Commuting.orderless (hcommuting : Commuting rounds) :
    Orderless (Alike app config rounds plain) where
  overflow := by
    intro a tx e h hcheck
    rcases h.sameRound with ⟨ha, _⟩ | ⟨kind, round, _, ha, ha', hself⟩
    · simp only [checkTransaction, ha] at hcheck
      cases hcheck
    · rw [ha] at ha'
      cases ha'
      simp only [checkTransaction, ha] at hcheck
      cases hround : RoundBehavior.check round tx with
      | error e =>
        rw [hround] at hcheck
        cases hcheck
        exact hcommuting.overflow hself hround
      | ok answer =>
        rw [hround] at hcheck
        cases hcheck
  check_after := by
    intro a b tx other h hsenders hcheck hprocess
    obtain ⟨kind, round, ha, hself, hpass⟩ := exists_round_of_check h hcheck
    obtain ⟨moved, hmoved, rfl⟩ := processed ha hprocess
    simp only [checkTransaction, ha, hcommuting.check_after hself hsenders hpass hmoved]
  process_comm := by
    intro a b c d e tx other h hsenders hcheck hcheck' hb hc hd he
    obtain ⟨kind, round, ha, hself, hpass⟩ := exists_round_of_check h hcheck
    have hpass' := checkTransaction_eq_ok ha hcheck'
    obtain ⟨first, hfirst, rfl⟩ := processed ha hb
    obtain ⟨second, hsecond, rfl⟩ := processed ha hd
    obtain ⟨last, hlast, rfl⟩ := processed rfl hc
    obtain ⟨last', hlast', rfl⟩ := processed rfl he
    exact h.with_current kind
      (hcommuting.process_comm hself hsenders hpass hpass' hfirst hlast hsecond hlast')

end Machine

end QuorumRounds
