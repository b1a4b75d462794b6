import QuorumRounds.Machine.Config
import QuorumRounds.Proofs.SortedMap.Domain
import QuorumRounds.Proofs.Wire.Forms

/-! # The forms of maps and configurations

A map is read from its entries in any order and with keys that occur more than once, so there are
more forms than what is written: the entry that counts is the last one of its key (`get?_ofList`).
A configuration is read from a number of participants and a list of counts. The number is checked
before the list is read (`read_of_zero`), and what is read is what the settings of the list make of
the parameters, one after the other (`Config.ofSettings`). -/

namespace QuorumRounds
set_option autoImplicit false

/-! ## Maps -/

namespace SortedMap
variable {κ α : Type} [Ord κ] [Std.TransOrd κ]

/-- The last of the entries that are listed under the key. -/
def lastListed [DecidableEq κ] (key : κ) (listed : List (κ × α)) : Option α :=
  (listed.filter fun e => e.1 = key).getLast?.map Prod.snd

theorem get?_ofList [Std.LawfulEqOrd κ] [DecidableEq κ] (listed : List (κ × α)) (key : κ) :
    (ofList listed).get? key = lastListed key listed := by
  induction listed using List.reverseRecOn with
  | nil => rfl
  | append_singleton listed e ih =>
    rw [ofList_concat, get?_insert, ih, lastListed, lastListed, List.filter_append]
    by_cases h : key = e.1
    · rw [if_pos h, List.filter_cons_of_pos (by simp [h]), List.filter_nil, List.getLast?_concat]
      rfl
    · rw [if_neg h, List.filter_cons_of_neg (by simp [Ne.symm h]), List.filter_nil,
        List.append_nil]

end SortedMap

section Maps
variable {κ α : Type} [Wire κ] [Wire α]

def writeEntry (e : κ × α) : List UInt8 := Wire.write e.1 ++ Wire.write e.2

theorem reads_writtenEntry (hkey : Reads Wire.read fun part (key : κ) => part = Wire.write key)
    (hvalue : Reads Wire.read fun part (value : α) => part = Wire.write value) :
    Reads (readPair Wire.read Wire.read) fun part (e : κ × α) => part = writeEntry e := by
  refine (hkey.record hvalue Prod.mk).of_iff fun part e => ?_
  constructor
  · rintro ⟨key, value, _, _, rfl, rfl, rfl, rfl⟩
    rfl
  · rintro rfl
    exact ⟨e.1, e.2, _, _, rfl, rfl, rfl, rfl⟩

theorem reads_map [Ord κ] [Std.TransOrd κ]
    (hkey : Reads Wire.read fun part (key : κ) => part = Wire.write key)
    (hvalue : Reads Wire.read fun part (value : α) => part = Wire.write value) :
    Reads Wire.read fun part (m : SortedMap κ α) =>
      ∃ listed, (listed.length < UInt64.size ∧ part = writeList writeEntry listed) ∧
        SortedMap.ofList listed = m := by
  have hentry : ∀ part (e : κ × α), part = writeEntry e ↔ True ∧ part = writeEntry e := by simp
  have hlist := (reads_writtenEntry hkey hvalue).list hentry
  refine (hlist.map SortedMap.ofList).of_iff fun part m => ?_
  simp

end Maps

/-! ## Quorum parameters -/

namespace ConsensusParams

theorem ofMaxParticipants_eq_ok_iff {n : UInt64} {params : ConsensusParams} :
    ofMaxParticipants n = .ok params ↔ params.maxParticipants = n := by
  unfold ofMaxParticipants
  constructor
  · intro h
    split at h
    · cases h
      rfl
    · cases h
  · rintro rfl
    rw [dif_pos params.positive]

theorem ofMaxParticipants_eq_error_iff {n : UInt64} {reason : ConfigError} :
    ofMaxParticipants n = .error reason ↔ n = 0 ∧ reason = .maxParticipantsTooLow 0 := by
  unfold ofMaxParticipants
  constructor
  · intro h
    split at h
    · cases h
    case isFalse hn =>
      obtain rfl : n = 0 := UInt64.toNat_inj.1 (Nat.eq_zero_of_not_pos hn)
      cases h
      exact ⟨rfl, rfl⟩
  · rintro ⟨rfl, rfl⟩
    rfl

theorem exists_of_ne_zero {n : UInt64} (h : n ≠ 0) :
    ∃ params : ConsensusParams, params.maxParticipants = n :=
  ⟨⟨n, Nat.pos_of_ne_zero fun hzero => h (UInt64.toNat_inj.1 hzero)⟩, rfl⟩

theorem reads_checked (n : UInt64) :
    Reads (match ofMaxParticipants n with
      | .ok params => pure params
      | .error reason => throw (.invalidConfig reason))
      fun part params => part = [] ∧ params.maxParticipants = n := by
  cases h : ofMaxParticipants n with
  | ok params =>
    refine (Reads.pure params).of_iff fun part other => and_congr_right fun _ => ?_
    rw [← ofMaxParticipants_eq_ok_iff, h, Except.ok.injEq, eq_comm]
  | error reason =>
    refine (Reads.throw _).of_iff fun part other => ?_
    rw [← ofMaxParticipants_eq_ok_iff, h]
    simp

theorem reads_params :
    Reads Wire.read fun part (params : ConsensusParams) => part = Wire.write params := by
  refine (reads_uint64.bind reads_checked).of_iff fun part params => ?_
  constructor
  · rintro ⟨n, _, _, rfl, ⟨rfl, rfl⟩, rfl⟩
    exact List.append_nil _
  · rintro rfl
    exact ⟨_, _, [], rfl, ⟨rfl, rfl⟩, (List.append_nil _).symm⟩

theorem read_of_zero (rest : List UInt8) :
    (Wire.read : Reader ConsensusParams).run (Wire.write (0 : UInt64) ++ rest) =
      .error (.invalidConfig (.maxParticipantsTooLow 0)) := by
  have hzero := (reads_uint64.spells (a := 0) rfl).whole rest
  show (Wire.read >>= _ : Reader ConsensusParams).run _ = _
  rw [StateT.run_bind, hzero]
  rfl

end ConsensusParams

/-! ## Configurations -/

namespace Config
variable {ρ : Type} [Ord ρ] [Std.TransOrd ρ]

/-- Each setting overrides those before it. -/
def ofSettings (params : ConsensusParams) (settings : List (ρ × UInt64)) : Config ρ :=
  settings.foldl (fun config setting => config.withConfirmations setting.1 setting.2)
    (ofParams params)

theorem ofSettings_eq (params : ConsensusParams) (settings : List (ρ × UInt64)) :
    ofSettings params settings = ⟨params, .ofList settings⟩ := by
  induction settings using List.reverseRecOn with
  | nil => rfl
  | append_singleton settings setting ih =>
    have hstep : ofSettings params (settings ++ [setting]) =
        (ofSettings params settings).withConfirmations setting.1 setting.2 := List.foldl_append
    rw [hstep, ih, SortedMap.ofList_concat]
    rfl

/-- A round that is not listed waits for no block. -/
theorem requiredConfirmations_ofSettings [Std.LawfulEqOrd ρ] [DecidableEq ρ]
    (params : ConsensusParams) (settings : List (ρ × UInt64)) (round : ρ) :
    (ofSettings params settings).requiredConfirmations round =
      (SortedMap.lastListed round settings).getD 0 := by
  rw [ofSettings_eq, requiredConfirmations, SortedMap.get?_ofList]

variable [Wire ρ]

/-- The number of participants and the settings, in the order in which they are listed. -/
def writeSettings (params : ConsensusParams) (settings : List (ρ × UInt64)) : List UInt8 :=
  Wire.write params.maxParticipants ++ writeList writeEntry settings

theorem reads_config (h : Reads Wire.read fun part (round : ρ) => part = Wire.write round) :
    Reads Wire.read fun part (config : Config ρ) =>
      ∃ settings, settings.length < UInt64.size ∧ part = writeSettings config.params settings ∧
        ofSettings config.params settings = config := by
  refine (ConsensusParams.reads_params.record (reads_map h reads_uint64) Config.mk).of_iff
    fun part config => ?_
  constructor
  · rintro ⟨params, m, _, _, rfl, ⟨settings, ⟨hlength, rfl⟩, rfl⟩, rfl, rfl⟩
    exact ⟨settings, hlength, rfl, ofSettings_eq params settings⟩
  · rintro ⟨settings, hlength, rfl, hconfig⟩
    rw [ofSettings_eq] at hconfig
    exact ⟨config.params, _, _, _, rfl, ⟨settings, ⟨hlength, rfl⟩, rfl⟩, rfl, hconfig⟩

theorem write_eq (config : Config ρ) :
    Wire.write config = writeSettings config.params config.confirmations.entries := rfl

omit [Wire ρ] in
/-- The entries of the map are settings themselves. -/
theorem ofSettings_entries [Std.LawfulEqOrd ρ] (config : Config ρ) :
    ofSettings config.params config.confirmations.entries = config := by
  rw [ofSettings_eq, SortedMap.ofList_entries]

theorem spells_write [Std.LawfulEqOrd ρ]
    (h : Reads Wire.read fun part (round : ρ) => part = Wire.write round) {config : Config ρ}
    (hsize : config.confirmations.size < UInt64.size) :
    Spells (Wire.write config) Wire.read config :=
  (reads_config h).spells ⟨_, hsize, write_eq config, ofSettings_entries config⟩

/-- Nothing behind the number of participants is looked at. -/
theorem read_of_zero (rest : List UInt8) :
    (Wire.read : Reader (Config ρ)).run (Wire.write (0 : UInt64) ++ rest) =
      .error (.invalidConfig (.maxParticipantsTooLow 0)) := by
  show (Wire.read >>= _ : Reader (Config ρ)).run _ = _
  rw [StateT.run_bind, ConsensusParams.read_of_zero]
  rfl

end Config

end QuorumRounds
