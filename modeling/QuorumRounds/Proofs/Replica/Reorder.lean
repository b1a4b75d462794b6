import QuorumRounds.Proofs.Replica.Alike

/-! # The order of the transactions in a block

Transactions of different senders do not get in each other's way: whether one is admitted does not
depend on the other, and taking both leaves machines behind that are alike, whichever came first. So
two neighbours may change places (`deliverPair_comm`), and with them all the transactions of a block,
as long as no two are of one sender (`run_perm`). -/

namespace QuorumRounds
set_option autoImplicit false

namespace Replica
open Checked (Both)
open Machine (Congruent Orderless)

variable {ρ ε κ σ P : Type} [Ord ρ] [Ord ε] [Ord κ] [RoundBehavior σ P ε] [Wire P]
  {alike : Machine ρ ε κ σ → Machine ρ ε κ σ → Prop} {a b c d : Replica ρ ε κ σ}
  {block : Block} {x y bytes : List UInt8}

/-- Not two transactions of one sender. -/
def Apart (P : Type) [Wire P] (x y : List UInt8) : Prop :=
  ∀ tx, decoded? P x = some tx → ∀ other, decoded? P y = some other → tx.sender ≠ other.sender

omit [RoundBehavior σ P ε] in
theorem Apart.symm (h : Apart P x y) : Apart P y x :=
  fun other hother tx htx => (h tx htx other hother).symm

omit [RoundBehavior σ P ε] in
theorem pairwise_apart {transactions : List (List UInt8)}
    (h : ((transactions.filterMap (decoded? P)).map (·.sender)).Nodup) :
    transactions.Pairwise (Apart P) :=
  List.pairwise_filterMap.1 (List.pairwise_map.1 (List.nodup_iff_pairwise_ne.1 h))

/-! ## One transaction -/

/-- Whether the machine would take the transaction. -/
def admits (replica : Replica ρ ε κ σ) (bytes : List UInt8) : Checked Bool :=
  match decoded? P bytes with
  | none => .ok false
  | some tx => (replica.machine.checkTransaction tx).map (·.isOk)

theorem deliverTx_of_overflow {e : Overflow} (hphase : a.phase = .delivering block)
    (h : a.admits bytes = .error e) : a.deliverTx bytes = .error e := by
  cases htx : decoded? P bytes with
  | none =>
    rw [admits, htx] at h
    cases h
  | some tx =>
    simp only [admits, htx] at h
    cases hcheck : a.machine.checkTransaction tx with
    | error e =>
      rw [hcheck] at h
      cases h
      simp only [deliverTx, hphase, decode_of_decoded? htx, hcheck]
      rfl
    | ok answer =>
      rw [hcheck] at h
      cases h

theorem deliverTx_of_refused (hphase : a.phase = .delivering block)
    (h : a.admits bytes = .ok false) :
    ∃ e, isRejection e = true ∧ a.deliverTx bytes = .ok (.error e, a) := by
  cases hdecode : Wire.decode (Transaction P) bytes with
  | error e => exact ⟨e, isRejection_of_decode hdecode, by simp only [deliverTx, hphase, hdecode]⟩
  | ok tx =>
    simp only [admits, decoded?_of_decode hdecode] at h
    obtain ⟨answer, hcheck, hrefused⟩ := Checked.map_eq_ok_iff.1 h
    cases answer with
    | error e =>
      refine ⟨e, Machine.isRejection_of_checkTransaction hcheck, ?_⟩
      simp only [deliverTx, hphase, hdecode, hcheck, Checked.ok_bind, Checked.pure_eq_ok]
    | ok _ => cases hrefused

omit [RoundBehavior σ P ε] [Wire P] in
/-- The replica once its machine has taken the transaction. -/
def taking (replica : Replica ρ ε κ σ) (block : Block) (bytes : List UInt8)
    (machine : Machine ρ ε κ σ) : Replica ρ ε κ σ :=
  { replica with
    machine := machine
    phase := .delivering ⟨block.header, block.transactions ++ [bytes]⟩ }

theorem deliverTx_of_admitted (hcongruent : Congruent alike) (hself : alike a.machine a.machine)
    (hphase : a.phase = .delivering block) (h : a.admits bytes = .ok true) :
    ∃ tx machine, decoded? P bytes = some tx ∧ a.machine.checkTransaction tx = .ok (.ok ()) ∧
      a.machine.processTransaction tx = .ok (.ok (), machine) ∧
      a.deliverTx bytes = .ok (.ok (), a.taking block bytes machine) := by
  cases htx : decoded? P bytes with
  | none =>
    rw [admits, htx] at h
    cases h
  | some tx =>
    simp only [admits, htx] at h
    obtain ⟨answer, hcheck, hadmitted⟩ := Checked.map_eq_ok_iff.1 h
    cases answer with
    | error e => cases hadmitted
    | ok _ =>
      obtain ⟨machine, _, hprocess, _⟩ := hcongruent.processTransaction hself hcheck
      refine ⟨tx, machine, rfl, hcheck, hprocess, ?_⟩
      simp only [deliverTx, hphase, decode_of_decoded? htx, hcheck, Checked.ok_bind, hprocess,
        Checked.pure_eq_ok, taking]

theorem call_of_overflow {e : Overflow} (hphase : a.phase = .delivering block)
    (h : a.admits bytes = .error e) : a.call (.deliverTx bytes) = .error e := by
  rw [call, deliverTx_of_overflow hphase h]
  rfl

theorem call_of_refused (hphase : a.phase = .delivering block) (h : a.admits bytes = .ok false) :
    a.call (.deliverTx bytes) = .ok a := by
  obtain ⟨e, _, hdeliver⟩ := deliverTx_of_refused hphase h
  rw [call, hdeliver]
  rfl

theorem call_of_admitted (hcongruent : Congruent alike) (hself : alike a.machine a.machine)
    (hphase : a.phase = .delivering block) (h : a.admits bytes = .ok true) :
    ∃ tx machine, decoded? P bytes = some tx ∧ a.machine.checkTransaction tx = .ok (.ok ()) ∧
      a.machine.processTransaction tx = .ok (.ok (), machine) ∧
      a.call (.deliverTx bytes) = .ok (a.taking block bytes machine) := by
  obtain ⟨tx, machine, htx, hcheck, hprocess, hdeliver⟩ :=
    deliverTx_of_admitted hcongruent hself hphase h
  refine ⟨tx, machine, htx, hcheck, hprocess, ?_⟩
  rw [call, hdeliver]
  rfl

theorem eq_add_of_admits {e : Overflow} (horderless : Orderless alike)
    (hself : alike a.machine a.machine) (h : a.admits bytes = .error e) : e = .add := by
  cases htx : decoded? P bytes with
  | none =>
    rw [admits, htx] at h
    cases h
  | some tx =>
    simp only [admits, htx] at h
    cases hcheck : a.machine.checkTransaction tx with
    | error e =>
      rw [hcheck] at h
      cases h
      exact horderless.overflow hself hcheck
    | ok answer =>
      rw [hcheck] at h
      cases h

theorem eq_add_of_call {e : Overflow} (hcongruent : Congruent alike) (horderless : Orderless alike)
    (hself : alike a.machine a.machine) (hphase : a.phase = .delivering block)
    (h : a.call (.deliverTx bytes) = .error e) : e = .add := by
  cases hadmits : a.admits bytes with
  | error e =>
    rw [call_of_overflow hphase hadmits] at h
    cases h
    exact eq_add_of_admits horderless hself hadmits
  | ok admitted =>
    cases admitted with
    | false =>
      rw [call_of_refused hphase hadmits] at h
      cases h
    | true =>
      obtain ⟨_, _, _, _, _, hcall⟩ := call_of_admitted hcongruent hself hphase hadmits
      rw [hcall] at h
      cases h

/-- A call keeps a replica that is alike to itself that way, and the block in progress. -/
theorem after_call (hcongruent : Congruent alike) (hself : Alike alike a a)
    (hphase : a.phase = .delivering block) (h : a.call (.deliverTx bytes) = .ok b) :
    Alike alike b b ∧ ∃ block, b.phase = .delivering block := by
  obtain ⟨⟨answer, after⟩, hdeliver, rfl⟩ := Checked.map_eq_ok_iff.1 h
  obtain ⟨⟨_, after'⟩, hdeliver', _, hafter⟩ := (hself.deliverTx hcongruent bytes).eq_ok hdeliver
  rw [hdeliver] at hdeliver'
  cases hdeliver'
  refine ⟨hafter, ?_⟩
  rcases deliverTx_cases hdeliver with ⟨_, rfl⟩ | ⟨_, _, _, _, _, _, _, ⟨_, rfl⟩ | ⟨_, rfl⟩⟩
  · exact ⟨block, hphase⟩
  · exact ⟨block, hphase⟩
  · exact ⟨_, rfl⟩

/-! ## Two neighbours -/

theorem admits_after (hcongruent : Congruent alike) (horderless : Orderless alike)
    (hself : alike a.machine a.machine) (hphase : a.phase = .delivering block)
    (hapart : Apart P x y) (h : a.call (.deliverTx x) = .ok b) : b.admits y = a.admits y := by
  cases hadmits : a.admits x with
  | error e =>
    rw [call_of_overflow hphase hadmits] at h
    cases h
  | ok admitted =>
    cases admitted with
    | false =>
      rw [call_of_refused hphase hadmits] at h
      cases h
      rfl
    | true =>
      obtain ⟨tx, machine, htx, hcheck, hprocess, hcall⟩ :=
        call_of_admitted hcongruent hself hphase hadmits
      rw [hcall] at h
      cases h
      rw [admits, admits]
      cases hother : decoded? P y with
      | none => rfl
      | some other =>
        have hsame := horderless.check_after hself (hapart tx htx other hother) hcheck hprocess
        exact congrArg (Except.map (·.isOk)) hsame

/-- The replica after two transactions. -/
def deliverPair (replica : Replica ρ ε κ σ) (x y : List UInt8) : Checked (Replica ρ ε κ σ) :=
  replica.call (.deliverTx x) >>= fun next => next.call (.deliverTx y)

section Pair
variable (hcongruent : Congruent alike) (horderless : Orderless alike) (hself : Alike alike a a)
  (hphase : a.phase = .delivering block) (hapart : Apart P x y)
include hcongruent horderless hself hphase hapart

theorem deliverPair_of_overflow {e : Overflow} (hx : a.admits x = .error e) :
    a.deliverPair x y = .error .add ∧ a.deliverPair y x = .error .add := by
  obtain rfl := eq_add_of_admits horderless hself.machine hx
  constructor
  · rw [deliverPair, call_of_overflow hphase hx]
    rfl
  · rw [deliverPair]
    cases hcall : a.call (.deliverTx y) with
    | error e =>
      rw [eq_add_of_call hcongruent horderless hself.machine hphase hcall]
      rfl
    | ok next =>
      obtain ⟨_, _, hnext⟩ := after_call hcongruent hself hphase hcall
      have hsame := admits_after hcongruent horderless hself.machine hphase hapart.symm hcall
      rw [Checked.ok_bind, call_of_overflow hnext (hsame.trans hx)]

/-- A transaction that is refused makes no difference, before the other or after it. -/
theorem deliverPair_of_refused (hx : a.admits x = .ok false) :
    a.deliverPair x y = a.call (.deliverTx y) ∧ a.deliverPair y x = a.call (.deliverTx y) := by
  constructor
  · rw [deliverPair, call_of_refused hphase hx, Checked.ok_bind]
  · rw [deliverPair]
    cases hcall : a.call (.deliverTx y) with
    | error e => rfl
    | ok next =>
      obtain ⟨_, _, hnext⟩ := after_call hcongruent hself hphase hcall
      have hsame := admits_after hcongruent horderless hself.machine hphase hapart.symm hcall
      rw [Checked.ok_bind, call_of_refused hnext (hsame.trans hx)]

theorem deliverPair_of_admitted (hx : a.admits x = .ok true) (hy : a.admits y = .ok true) :
    Both (Alike alike) (a.deliverPair x y) (a.deliverPair y x) := by
  obtain ⟨tx, first, htx, hcheck, hprocess, hcall⟩ :=
    call_of_admitted hcongruent hself.machine hphase hx
  obtain ⟨other, second, hother, hcheck', hprocess', hcall'⟩ :=
    call_of_admitted hcongruent hself.machine hphase hy
  have hsenders := hapart tx htx other hother
  have hy' := admits_after hcongruent horderless hself.machine hphase hapart hcall
  have hx' := admits_after hcongruent horderless hself.machine hphase hapart.symm hcall'
  obtain ⟨hfirst, _⟩ := after_call hcongruent hself hphase hcall
  obtain ⟨hsecond, _⟩ := after_call hcongruent hself hphase hcall'
  obtain ⟨_, last, hother', _, hlast, hpair⟩ :=
    call_of_admitted hcongruent hfirst.machine rfl (hy'.trans hy)
  obtain ⟨_, last', htx', _, hlast', hpair'⟩ :=
    call_of_admitted hcongruent hsecond.machine rfl (hx'.trans hx)
  rw [hother] at hother'
  cases hother'
  rw [htx] at htx'
  cases htx'
  rw [deliverPair, deliverPair, hcall, hcall', Checked.ok_bind, Checked.ok_bind, hpair, hpair']
  refine .ok ⟨?_, .delivering ⟨rfl, ?_⟩, rfl, hself.blocks, rfl⟩
  · exact horderless.process_comm hself.machine hsenders hcheck hcheck' hprocess hlast hprocess'
      hlast'
  · change ((block.transactions ++ [x]) ++ [y]).Perm ((block.transactions ++ [y]) ++ [x])
    rw [List.append_assoc, List.append_assoc]
    exact (List.Perm.swap y x []).append_left _

theorem deliverPair_comm : Both (Alike alike) (a.deliverPair x y) (a.deliverPair y x) := by
  have hcall : Both (Alike alike) (a.call (.deliverTx y)) (a.call (.deliverTx y)) :=
    Both.of_eq rfl fun _ h => (after_call hcongruent hself hphase h).1
  have hcall' : Both (Alike alike) (a.call (.deliverTx x)) (a.call (.deliverTx x)) :=
    Both.of_eq rfl fun _ h => (after_call hcongruent hself hphase h).1
  cases hx : a.admits x with
  | error e =>
    obtain ⟨hxy, hyx⟩ := deliverPair_of_overflow hcongruent horderless hself hphase hapart hx
    rw [hxy, hyx]
    exact .error Overflow.add
  | ok xAdmitted =>
    cases hy : a.admits y with
    | error e =>
      obtain ⟨hyx, hxy⟩ :=
        deliverPair_of_overflow hcongruent horderless hself hphase hapart.symm hy
      rw [hxy, hyx]
      exact .error Overflow.add
    | ok yAdmitted =>
      cases xAdmitted with
      | false =>
        obtain ⟨hxy, hyx⟩ := deliverPair_of_refused hcongruent horderless hself hphase hapart hx
        rw [hxy, hyx]
        exact hcall
      | true =>
        cases yAdmitted with
        | false =>
          obtain ⟨hyx, hxy⟩ :=
            deliverPair_of_refused hcongruent horderless hself hphase hapart.symm hy
          rw [hxy, hyx]
          exact hcall'
        | true => exact deliverPair_of_admitted hcongruent horderless hself hphase hapart hx hy

end Pair

/-! ## Runs -/

theorem run_cons (replica : Replica ρ ε κ σ) (c : Call) (calls : List Call) :
    replica.run (c :: calls) = replica.call c >>= fun next => next.run calls := by
  rw [run, List.foldlM_cons]
  rfl

theorem run_deliverTx (hcongruent : Congruent alike) (hab : Alike alike a b)
    (transactions : List (List UInt8)) :
    Both (Alike alike) (a.run (transactions.map .deliverTx))
      (b.run (transactions.map .deliverTx)) := by
  induction transactions generalizing a b with
  | nil => exact .ok hab
  | cons bytes rest ih =>
    rw [List.map_cons, run_cons, run_cons]
    apply Both.bind (Both.map (hab.deliverTx hcongruent bytes) fun _ _ h => h.2)
    intro next next' hnext
    exact ih hnext

/-- The induction is on how one order is made from the other, by exchanging neighbours. -/
theorem run_perm (hcongruent : Congruent alike) (horderless : Orderless alike)
    (hself : Alike alike a a) (hphase : a.phase = .delivering block)
    {first second : List (List UInt8)} (hperm : first.Perm second)
    (hapart : first.Pairwise (Apart P)) :
    Both (Alike alike) (a.run (first.map .deliverTx)) (a.run (second.map .deliverTx)) := by
  induction hperm generalizing a block with
  | nil => exact .ok hself
  | @cons bytes first second _ ih =>
    rw [List.map_cons, List.map_cons, run_cons, run_cons]
    cases hcall : a.call (.deliverTx bytes) with
    | error e => exact .error e
    | ok next =>
      obtain ⟨hnext, _, hdelivering⟩ := after_call hcongruent hself hphase hcall
      exact ih hnext hdelivering (List.pairwise_cons.1 hapart).2
  | swap x y rest =>
    have hpair := (List.pairwise_cons.1 hapart).1 x (List.mem_cons_self ..)
    have hswap := deliverPair_comm hcongruent horderless hself hphase hpair
    simp only [deliverPair] at hswap
    simp only [List.map_cons, run_cons, ← bind_assoc]
    exact Both.bind hswap fun _ _ hnext => run_deliverTx hcongruent hnext rest
  | trans hfirst _ ih ih' =>
    have hmiddle := (hfirst.pairwise_iff fun h => Apart.symm h).1 hapart
    apply (Both.trans (ih hself hphase hapart) (ih' hself hphase hmiddle)).mono
    rintro x z ⟨y, hxy, hyz⟩
    exact hxy.trans hcongruent hyz

/-- Delivering transactions never fails, and what it leaves behind is what the calls leave behind
one by one. -/
theorem deliverAll_run (hcongruent : Congruent alike) (hself : Alike alike a a)
    (hphase : a.phase = .delivering block) (index : Nat) (transactions : List (List UInt8)) :
    Both (fun out last => (∃ rejected, out.1 = .ok rejected) ∧ out.2 = last)
      (a.deliverAll index transactions) (a.run (transactions.map .deliverTx)) := by
  induction transactions generalizing a block index with
  | nil => exact .ok ⟨⟨[], rfl⟩, rfl⟩
  | cons bytes rest ih =>
    rw [List.map_cons, run_cons, deliverAll]
    cases hadmits : a.admits bytes with
    | error e =>
      rw [deliverTx_of_overflow hphase hadmits, call_of_overflow hphase hadmits]
      exact .error e
    | ok admitted =>
      cases admitted with
      | false =>
        obtain ⟨e, hrejection, hdeliver⟩ := deliverTx_of_refused hphase hadmits
        rw [hdeliver, call_of_refused hphase hadmits]
        simp only [Checked.ok_bind, hrejection, if_true]
        have hrest := ih hself hphase (index + 1)
        generalize a.deliverAll (index + 1) rest = out, a.run (rest.map .deliverTx) = last at hrest ⊢
        cases hrest with
        | error e => exact .error e
        | ok hrest =>
          obtain ⟨⟨rejected, hanswer⟩, hlast⟩ := hrest
          refine .ok ⟨⟨(index, e) :: rejected, ?_⟩, hlast⟩
          rw [hanswer]
          rfl
      | true =>
        obtain ⟨tx, machine, _, _, _, hdeliver⟩ :=
          deliverTx_of_admitted hcongruent hself.machine hphase hadmits
        have hcall : a.call (.deliverTx bytes) = .ok (a.taking block bytes machine) := by
          rw [call, hdeliver]
          rfl
        obtain ⟨hnext, _⟩ := after_call hcongruent hself hphase hcall
        rw [hdeliver, hcall]
        exact ih hnext rfl (index + 1)

/-! ## Blocks -/

theorem deliverAll_perm (hcongruent : Congruent alike) (horderless : Orderless alike)
    (hab : Alike alike a b) (hphase : a.phase = .delivering block)
    {first second : List (List UInt8)} (hperm : first.Perm second)
    (hapart : first.Pairwise (Apart P)) :
    Both (fun x y => Both (fun _ _ => True) x.1 y.1 ∧ Alike alike x.2 y.2) (a.deliverAll 0 first)
      (b.deliverAll 0 second) := by
  have hself := hab.refl_left hcongruent
  have hfirst := deliverAll_run hcongruent hself hphase 0 first
  have hsecond := deliverAll_run hcongruent hself hphase 0 second
  have hruns := run_perm hcongruent horderless hself hphase hperm hapart
  have hsame := hab.deliverAll hcongruent 0 second
  have hreordered : Both (fun x y => Both (fun _ _ => True) x.1 y.1 ∧ Alike alike x.2 y.2)
      (a.deliverAll 0 first) (a.deliverAll 0 second) := by
    apply ((hfirst.trans hruns).trans hsecond.symm).mono
    rintro ⟨_, x⟩ ⟨_, y⟩ ⟨last, ⟨_, ⟨⟨rejected, rfl⟩, rfl⟩, hxy⟩, ⟨others, rfl⟩, rfl⟩
    exact ⟨.ok trivial, hxy⟩
  apply (hreordered.trans hsame).mono
  rintro x z ⟨y, ⟨hanswers, hxy⟩, hanswer, hyz⟩
  exact ⟨hanswer ▸ hanswers, hxy.trans hcongruent hyz⟩

/-- Blocks that hold the same transactions come to the same. -/
theorem processBlock_perm (hcongruent : Congruent alike) (horderless : Orderless alike)
    (hself : Alike alike a a) (header : BlockHeader) {first second : List (List UInt8)}
    (hperm : first.Perm second) (hapart : first.Pairwise (Apart P)) :
    Both (fun x y => Both (OutcomeAlike fun _ _ => True) x.1 y.1 ∧ Alike alike x.2 y.2)
      (a.processBlock ⟨header, first⟩) (a.processBlock ⟨header, second⟩) :=
  hself.processBlock_of_deliverAll hcongruent header fun hcd hphase =>
    deliverAll_perm hcongruent horderless hcd hphase hperm hapart

end Replica

end QuorumRounds
