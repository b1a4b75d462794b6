import Mathlib.Data.List.Forall2
import QuorumRounds.Proofs.Machine.Alike
import QuorumRounds.Proofs.Replica.Runs
import QuorumRounds.Proofs.Replica.Steps

/-! # Replicas that cannot be told apart

Two replicas are alike when their machines are alike, and their blocks hold the same transactions,
those that have been committed as well as the one in progress, in whichever order. If no step tells
the machines apart, no call tells the replicas apart (`Alike.processBlock`), nor does any sequence of
blocks (`Alike.processAll`). -/

namespace QuorumRounds
set_option autoImplicit false

/-- The same transactions under the same header. -/
structure Block.Alike (a b : Block) : Prop where
  header_eq : a.header = b.header
  perm : a.transactions.Perm b.transactions

inductive Phase.Alike : Phase → Phase → Prop where
  | idle : Phase.Alike .idle .idle
  | delivering {a b : Block} (h : a.Alike b) : Phase.Alike (.delivering a) (.delivering b)
  | ended {a b : Block} (h : a.Alike b) : Phase.Alike (.ended a) (.ended b)

theorem Block.Alike.refl (a : Block) : a.Alike a := ⟨rfl, .refl _⟩

theorem Block.Alike.trans {a b c : Block} (hab : a.Alike b) (hbc : b.Alike c) : a.Alike c :=
  ⟨hab.header_eq.trans hbc.header_eq, hab.perm.trans hbc.perm⟩

theorem Block.Alike.trans_all {as bs cs : List Block} (hab : List.Forall₂ Block.Alike as bs)
    (hbc : List.Forall₂ Block.Alike bs cs) : List.Forall₂ Block.Alike as cs := by
  induction hab generalizing cs with
  | nil => exact hbc
  | cons hab _ ih =>
    cases hbc with
    | cons hbc hrest => exact .cons (hab.trans hbc) (ih hrest)

theorem Phase.Alike.refl (a : Phase) : a.Alike a := by
  cases a with
  | idle => exact .idle
  | delivering block => exact .delivering (.refl block)
  | ended block => exact .ended (.refl block)

theorem Phase.Alike.trans {a b c : Phase} (hab : a.Alike b) (hbc : b.Alike c) : a.Alike c := by
  cases hab with
  | idle => exact hbc
  | delivering hab =>
    cases hbc with
    | delivering hbc => exact .delivering (hab.trans hbc)
  | ended hab =>
    cases hbc with
    | ended hbc => exact .ended (hab.trans hbc)

namespace Replica
open Checked (Both SameAnswer)
open Machine (Congruent)

variable {ρ ε κ σ P : Type} [Ord ρ] [Ord ε] [Ord κ] [RoundBehavior σ P ε]

structure Alike (alike : Machine ρ ε κ σ → Machine ρ ε κ σ → Prop) (a b : Replica ρ ε κ σ) :
    Prop where
  machine : alike a.machine b.machine
  phase : a.phase.Alike b.phase
  height_eq : a.height = b.height
  blocks : List.Forall₂ Block.Alike a.blocks b.blocks
  transitionHeight_eq : a.transitionHeight = b.transitionHeight

/-- The same event, and related reports of what has been left out. -/
def OutcomeAlike (S : List (Nat × Error) → List (Nat × Error) → Prop) (x y : BlockOutcome ε) :
    Prop := S x.rejected y.rejected ∧ x.event = y.event

variable {alike : Machine ρ ε κ σ → Machine ρ ε κ σ → Prop} {a b c : Replica ρ ε κ σ}

namespace Alike

omit [RoundBehavior σ P ε] in
theorem refl (h : alike a.machine a.machine) : Alike alike a a where
  machine := h
  phase := .refl _
  height_eq := rfl
  blocks := List.forall₂_same.2 fun block _ => .refl block
  transitionHeight_eq := rfl

theorem trans (hcongruent : Congruent alike) (hab : Alike alike a b) (hbc : Alike alike b c) :
    Alike alike a c where
  machine := hcongruent.trans hab.machine hbc.machine
  phase := hab.phase.trans hbc.phase
  height_eq := hab.height_eq.trans hbc.height_eq
  blocks := Block.Alike.trans_all hab.blocks hbc.blocks
  transitionHeight_eq := hab.transitionHeight_eq.trans hbc.transitionHeight_eq

/-- A replica that is alike to any replica is alike to itself. -/
theorem refl_left (hcongruent : Congruent alike) (h : Alike alike a b) : Alike alike a a :=
  .refl (hcongruent.trans h.machine (hcongruent.symm h.machine))

/-! ## Calls -/

theorem beginBlock (hcongruent : Congruent alike) (h : Alike alike a b) (header : BlockHeader) :
    Both (SameAnswer (Alike alike)) (a.beginBlock header) (b.beginBlock header) := by
  have halike := h
  obtain ⟨machine, phase, height, blocks, transitionHeight⟩ := a
  obtain ⟨machine', phase', height', blocks', transitionHeight'⟩ := b
  obtain ⟨hmachine, hphase, rfl, hblocks, rfl⟩ := h
  cases hphase with
  | idle =>
    simp only [Replica.beginBlock]
    apply Both.bind (Both.of_eq rfl fun _ _ => rfl)
    rintro next _ rfl
    by_cases hheight : header.height = next
    · rw [if_pos hheight, if_pos hheight]
      apply Both.bind (hcongruent.updateTime header.timestamp hmachine)
      rintro ⟨answer, timed⟩ ⟨_, timed'⟩ ⟨rfl, htimed⟩
      cases answer with
      | error e => exact .ok ⟨rfl, htimed, .idle, rfl, hblocks, rfl⟩
      | ok event => exact .ok ⟨rfl, htimed, .delivering (.refl _), rfl, hblocks, rfl⟩
    · rw [if_neg hheight, if_neg hheight]
      exact .ok ⟨rfl, halike⟩
  | delivering _ => exact .ok ⟨rfl, halike⟩
  | ended _ => exact .ok ⟨rfl, halike⟩

theorem endBlock (hcongruent : Congruent alike) (h : Alike alike a b) :
    Both (SameAnswer (Alike alike)) a.endBlock b.endBlock := by
  have halike := h
  obtain ⟨machine, phase, height, blocks, transitionHeight⟩ := a
  obtain ⟨machine', phase', height', blocks', transitionHeight'⟩ := b
  obtain ⟨hmachine, hphase, rfl, hblocks, rfl⟩ := h
  cases hphase with
  | idle => exact .ok ⟨rfl, halike⟩
  | delivering hblock =>
    simp only [Replica.endBlock]
    apply Both.bind (hcongruent.endBlock hmachine)
    rintro ⟨answer, asked⟩ ⟨_, asked'⟩ ⟨rfl, hasked⟩
    rcases answer with e | _ | event
    · exact .ok ⟨rfl, hasked, .ended hblock, rfl, hblocks, rfl⟩
    · exact .ok ⟨rfl, hasked, .ended hblock, rfl, hblocks, rfl⟩
    · apply Both.bind (Both.of_eq rfl fun _ _ => rfl)
      rintro next _ rfl
      exact .ok ⟨rfl, hasked, .ended hblock, rfl, hblocks, rfl⟩
  | ended _ => exact .ok ⟨rfl, halike⟩

omit [RoundBehavior σ P ε] in
theorem commit (h : Alike alike a b) : Both (SameAnswer (Alike alike)) a.commit b.commit := by
  have halike := h
  obtain ⟨machine, phase, height, blocks, transitionHeight⟩ := a
  obtain ⟨machine', phase', height', blocks', transitionHeight'⟩ := b
  obtain ⟨hmachine, hphase, rfl, hblocks, rfl⟩ := h
  cases hphase with
  | idle => exact .ok ⟨rfl, halike⟩
  | delivering _ => exact .ok ⟨rfl, halike⟩
  | ended hblock =>
    refine .ok ⟨rfl, hmachine, .idle, congrArg BlockHeader.height hblock.header_eq, ?_, rfl⟩
    exact List.rel_append hblocks (.cons hblock .nil)

omit [RoundBehavior σ P ε] in
theorem abort (h : Alike alike a b) : Alike alike a.abort b.abort :=
  ⟨h.machine, .idle, h.height_eq, h.blocks, h.transitionHeight_eq⟩

variable [Wire P]

theorem deliverTx (hcongruent : Congruent alike) (h : Alike alike a b) (bytes : List UInt8) :
    Both (SameAnswer (Alike alike)) (a.deliverTx bytes) (b.deliverTx bytes) := by
  have halike := h
  obtain ⟨machine, phase, height, blocks, transitionHeight⟩ := a
  obtain ⟨machine', phase', height', blocks', transitionHeight'⟩ := b
  obtain ⟨hmachine, hphase, rfl, hblocks, rfl⟩ := h
  cases hphase with
  | idle => exact .ok ⟨rfl, halike⟩
  | delivering hblock =>
    simp only [Replica.deliverTx]
    cases Wire.decode (Transaction P) bytes with
    | error e => exact .ok ⟨rfl, halike⟩
    | ok tx =>
      simp only [← hcongruent.checkTransaction tx hmachine]
      cases hcheck : machine.checkTransaction tx with
      | error e => exact .error e
      | ok checked =>
        cases checked with
        | error e => exact .ok ⟨rfl, halike⟩
        | ok _ =>
          obtain ⟨c, d, hprocess, hprocess', htaken⟩ :=
            hcongruent.processTransaction hmachine hcheck
          simp only [Checked.ok_bind, hprocess, hprocess']
          exact .ok ⟨rfl, htaken, .delivering ⟨hblock.header_eq, hblock.perm.append_right _⟩, rfl,
            hblocks, rfl⟩
  | ended _ => exact .ok ⟨rfl, halike⟩

/-! ## Whole blocks -/

theorem deliverAll (hcongruent : Congruent alike) (h : Alike alike a b) (index : Nat)
    (transactions : List (List UInt8)) :
    Both (SameAnswer (Alike alike)) (a.deliverAll index transactions)
      (b.deliverAll index transactions) := by
  induction transactions generalizing a b index with
  | nil => exact .ok ⟨rfl, h⟩
  | cons bytes rest ih =>
    simp only [Replica.deliverAll]
    apply Both.bind (h.deliverTx hcongruent bytes)
    rintro ⟨answer, next⟩ ⟨_, next'⟩ ⟨rfl, hnext⟩
    cases answer with
    | ok _ => exact ih hnext (index + 1)
    | error e =>
      cases hrejection : isRejection e with
      | false =>
        simp only [hrejection, Bool.false_eq_true, if_false]
        exact .ok ⟨rfl, hnext⟩
      | true =>
        simp only [hrejection, if_true]
        apply Both.bind (ih hnext (index + 1))
        rintro ⟨others, last⟩ ⟨_, last'⟩ ⟨rfl, hlast⟩
        exact .ok ⟨rfl, hlast⟩

/-- How a block ends does not depend on its transactions beyond what they have left behind. -/
theorem runBlock (hcongruent : Congruent alike)
    {S : List (Nat × Error) → List (Nat × Error) → Prop} {first second : List (List UInt8)}
    (h : Both (fun x y => Both S x.1 y.1 ∧ Alike alike x.2 y.2) (a.deliverAll 0 first)
      (b.deliverAll 0 second)) :
    Both (fun x y => Both (OutcomeAlike S) x.1 y.1 ∧ Alike alike x.2 y.2) (a.runBlock first)
      (b.runBlock second) := by
  apply Both.bind h
  rintro ⟨delivered, after⟩ ⟨delivered', after'⟩ ⟨hdelivered, hafter⟩
  cases hdelivered with
  | error e => exact .ok ⟨.error e, hafter⟩
  | ok hrejected =>
    apply Both.bind (hafter.endBlock hcongruent)
    rintro ⟨answer, ended⟩ ⟨_, ended'⟩ ⟨rfl, hended⟩
    cases answer with
    | error e => exact .ok ⟨.error e, hended⟩
    | ok event =>
      apply Both.bind hended.commit
      rintro ⟨answer, committed⟩ ⟨_, committed'⟩ ⟨rfl, hcommitted⟩
      refine .ok ⟨?_, hcommitted⟩
      exact Both.map (Both.of_eq rfl fun _ _ => rfl) fun _ _ _ => ⟨hrejected, rfl⟩

theorem processBlock_of_deliverAll (hcongruent : Congruent alike) (h : Alike alike a b)
    (header : BlockHeader) {S : List (Nat × Error) → List (Nat × Error) → Prop}
    {first second : List (List UInt8)}
    (hdeliver : ∀ {c d : Replica ρ ε κ σ} {block : Block}, Alike alike c d →
      c.phase = .delivering block → Both (fun x y => Both S x.1 y.1 ∧ Alike alike x.2 y.2)
        (c.deliverAll 0 first) (d.deliverAll 0 second)) :
    Both (fun x y => Both (OutcomeAlike S) x.1 y.1 ∧ Alike alike x.2 y.2)
      (a.processBlock ⟨header, first⟩) (b.processBlock ⟨header, second⟩) := by
  apply Both.bind (h.beginBlock hcongruent header).with_eq
  rintro ⟨answer, begun⟩ ⟨_, begun'⟩ ⟨⟨rfl, hbegun⟩, hbegin, _⟩
  cases answer with
  | error e => exact .ok ⟨.error e, hbegun⟩
  | ok _ =>
    obtain ⟨_, _, event, machine, _, hphase⟩ := beginBlock_eq_ok hbegin
    have hdelivering : begun.phase = .delivering ⟨header, []⟩ := by rw [hphase]
    apply Both.bind (runBlock hcongruent (hdeliver hbegun hdelivering))
    rintro ⟨outcome, after⟩ ⟨outcome', after'⟩ ⟨houtcome, hafter⟩
    cases houtcome with
    | error e => exact .ok ⟨.error e, hafter.abort⟩
    | ok h => exact .ok ⟨.ok h, hafter⟩

theorem processBlock (hcongruent : Congruent alike) (h : Alike alike a b) (block : Block) :
    Both (SameAnswer (Alike alike)) (a.processBlock block) (b.processBlock block) := by
  have hsame : ∀ {c d : Replica ρ ε κ σ}, Alike alike c d →
      Both (fun x y => Both (· = ·) x.1 y.1 ∧ Alike alike x.2 y.2)
        (c.deliverAll 0 block.transactions) (d.deliverAll 0 block.transactions) := by
    intro c d hcd
    apply (hcd.deliverAll hcongruent 0 block.transactions).mono
    rintro x y ⟨hanswer, hafter⟩
    exact ⟨Both.of_eq hanswer fun _ _ => rfl, hafter⟩
  apply (h.processBlock_of_deliverAll hcongruent block.header fun hcd _ => hsame hcd).mono
  rintro x y ⟨houtcome, hafter⟩
  refine ⟨Both.eq_of_both (houtcome.mono ?_), hafter⟩
  rintro ⟨rejected, event⟩ ⟨_, _⟩ ⟨rfl, rfl⟩
  rfl

theorem processAll (hcongruent : Congruent alike) (h : Alike alike a b) (blocks : List Block) :
    Both (SameAnswer (Alike alike)) (a.processAll blocks) (b.processAll blocks) := by
  induction blocks generalizing a b with
  | nil => exact .ok ⟨rfl, h⟩
  | cons block rest ih =>
    simp only [Replica.processAll]
    apply Both.bind (h.processBlock hcongruent block)
    rintro ⟨outcome, next⟩ ⟨_, next'⟩ ⟨rfl, hnext⟩
    apply Both.bind (ih hnext)
    rintro ⟨others, last⟩ ⟨_, last'⟩ ⟨rfl, hlast⟩
    exact .ok ⟨rfl, hlast⟩

end Alike

end Replica

end QuorumRounds
