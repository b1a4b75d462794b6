import QuorumRounds.Proofs.PriceOracle.Running
import QuorumRounds.Proofs.Replica.Log

/-! # Every stored result is backed by the log

A round that ends with a result writes one value, and the value follows from the transactions in the
log since the round was entered: the participants from the registrations (`Registered`), the map of
observations from the observations (`Observed`), the estimate from a threshold of votes for it
(`Estimated`). A reset opens the next period (`Reopened`). Nothing else changes the store: not a
timeout, not a round without a majority, not a block that is refused. -/

namespace QuorumRounds.PriceOracle
set_option autoImplicit false

/-! ## What the rounds write -/

def Registered (served : List (Transaction Payload)) (before after : Store) : Prop :=
  ∃ addresses : SortedSet String,
    (∀ s, addresses.contains s = true ↔ ⟨s, .registration⟩ ∈ served) ∧
    before.Appends participantsKey (participantsValue addresses.toList) after ∧
    after.participants = .ok addresses

def Observed (params : ConsensusParams) (served : List (Transaction Payload))
    (before after : Store) : Prop :=
  ∃ threshold, params.threshold = .ok threshold ∧ ∃ prices : SortedMap String Binary64,
    (∀ s price, prices.get? s = some price ↔ ⟨s, .observation price⟩ ∈ served) ∧
    prices.size = served.length ∧ threshold ≤ prices.size ∧
    before.Appends observationsKey (.ofMap (prices.mapValues .float)) after ∧
    observations after = .ok prices

def Estimated (params : ConsensusParams) (served : List (Transaction Payload))
    (before after : Store) : Prop :=
  ∃ threshold, params.threshold = .ok threshold ∧
    ∃ participants, before.participants = .ok participants ∧
    ∃ (price : Binary64) (senders : Finset String), threshold ≤ senders.card ∧
      (∀ s ∈ senders, participants.contains s = true ∧
        ∃ x, ⟨s, .estimate x⟩ ∈ served ∧ (x = price ∨ x.equals price = true)) ∧
      before.Appends estimateKey (.float price) after ∧ mostVotedEstimate after = .ok price

def Reopened (depth : UInt64) (before after : Store) : Prop :=
  ∃ opened, before.create crossPeriodKeys = .ok opened ∧ after = opened.cleanup depth.toNat none

/-- What the end of a block makes of the store, in a round of this kind and with this event. -/
def Backed (settings : Settings) (params : ConsensusParams) (served : List (Transaction Payload))
    (before after : Store) : RoundKind → Option Event → Prop
  | .registration, some .done => Registered served before after
  | .collectObservation, some .done => Observed params served before after
  | .estimateConsensus, some .done => Estimated params served before after
  | .reset, some .done => Reopened settings.periodHistoryDepth before after
  | _, _ => after = before

section Poll
variable {poll : Poll Kind} {taken : List (Transaction Payload)}

/-! ## Registration -/

theorem contains_collected_registration (h : poll.Took taken)
    (hallowed : poll.allowed = .registration) {s : String} :
    (collected taken).contains s = true ↔ ⟨s, .registration⟩ ∈ taken := by
  rw [contains_collected, List.mem_map]
  constructor
  · rintro ⟨⟨sender, payload⟩, hmem, rfl⟩
    rw [Payload.eq_registration ((Round.Took.kind_of_mem h hmem).trans hallowed)] at hmem
    exact hmem
  · intro hmem
    exact ⟨_, hmem, rfl⟩

theorem registered_of_took (h : poll.Took taken) (hallowed : poll.allowed = .registration) :
    Registered taken poll.store
      (poll.store.update [(participantsKey, participantsValue (collected taken).keys)]) := by
  let addresses : SortedSet String := (collected taken).mapValues fun _ => ()
  have hkeys : addresses.toList = (collected taken).keys := SortedMap.keys_mapValues _ _
  have hvalue := Store.get?_update poll.store participantsKey participantsKey
    (participantsValue addresses.toList)
  rw [if_pos rfl] at hvalue
  rw [← hkeys]
  refine ⟨addresses, ?_, Store.appends_update _ _ _, ?_⟩
  · intro s
    rw [← contains_collected_registration h hallowed, SortedMap.contains, SortedMap.get?_mapValues,
      Option.isSome_map, SortedMap.contains]
  · rw [Store.participants_of_value hvalue, SortedSet.ofList_toList]

/-! ## Observations -/

/-- The observed prices by sender. -/
def prices (taken : List (Transaction Payload)) : SortedMap String Binary64 :=
  (collected taken).filterMap fun _ payload =>
    match payload with
    | .observation price => some price
    | _ => none

theorem collectedObservations_eq (taken : List (Transaction Payload)) :
    Round.collectedObservations (collected taken) = (prices taken).mapValues .float := by
  apply SortedMap.ext_get?
  intro s
  rw [Round.collectedObservations, prices, SortedMap.get?_filterMap, SortedMap.get?_mapValues,
    SortedMap.get?_filterMap]
  cases (collected taken).get? s with
  | none => rfl
  | some payload => cases payload <;> rfl

theorem get?_prices (h : poll.Took taken) {s : String} {price : Binary64} :
    (prices taken).get? s = some price ↔ ⟨s, .observation price⟩ ∈ taken := by
  rw [← h.get?_collected, prices, SortedMap.get?_filterMap]
  cases (collected taken).get? s with
  | none => simp
  | some payload => cases payload <;> simp

theorem size_prices (h : poll.Took taken) (hallowed : poll.allowed = .observation) :
    (prices taken).size = taken.length := by
  rw [← h.size_collected]
  apply SortedMap.size_filterMap
  rintro ⟨s, payload⟩ hmem
  rw [SortedMap.mem_entries_iff, h.get?_collected] at hmem
  obtain ⟨price, rfl⟩ :=
    Payload.exists_observation ((Round.Took.kind_of_mem h hmem).trans hallowed)
  rfl

/-- What is written for a map of prices is read back as that map. -/
theorem observations_of_value {store : Store} {read : SortedMap String Binary64}
    (h : store.get? observationsKey = some (.ofMap (read.mapValues .float))) :
    observations store = .ok read := by
  have hget : store.get observationsKey = .ok (.ofMap (read.mapValues .float)) := by
    rw [Store.get, h]
  have hmap : (Value.ofMap (read.mapValues .float)).asMap? = some (read.mapValues .float) := by
    rw [Value.ofMap, Value.asMap?, SortedMap.ofList_entries]
  have hentries : ∀ entries : List (String × Binary64),
      (entries.map fun e => (e.1, Value.float e.2)).mapM
        (fun e => e.2.asFloat?.map (e.1, ·)) = some entries := by
    intro entries
    induction entries with
    | nil => rfl
    | cons e rest ih =>
      rw [List.map_cons, List.mapM_cons, ih]
      rfl
  have hread := hentries read.entries
  simp only [observations, hget, bind, Except.bind, hmap]
  simp only [SortedMap.mapValues, hread]
  exact congrArg Except.ok (SortedMap.ofList_entries read)

theorem observed_of_took {threshold : Nat} (h : poll.Took taken)
    (hallowed : poll.allowed = .observation) (ht : poll.threshold = .ok threshold)
    (hle : threshold ≤ (collected taken).size) :
    Observed poll.params taken poll.store
      (poll.store.update
        [(observationsKey, .ofMap (Round.collectedObservations (collected taken)))]) := by
  have hsize := size_prices h hallowed
  rw [h.size_collected, ← hsize] at hle
  rw [collectedObservations_eq]
  refine ⟨threshold, ht, prices taken, fun s price => get?_prices h, hsize, hle,
    Store.appends_update _ _ _, ?_⟩
  apply observations_of_value
  rw [Store.get?_update, if_pos rfl]

/-! ## Estimates -/

theorem mostVotedEstimate_of_value {store : Store} {price : Binary64}
    (h : store.get? estimateKey = some (.float price)) : mostVotedEstimate store = .ok price := by
  have hget : store.get estimateKey = .ok (.float price) := by
    rw [Store.get, h]
  simp only [mostVotedEstimate, hget, bind, Except.bind, Value.asFloat?]
  rfl

/-! ## Any outcome -/

theorem backed_of_outcome {settings : Settings} {kind : RoundKind} {event : Event} {store : Store}
    (h : poll.Took taken) (hallowed : poll.allowed = kind.allowed)
    (hparticipants : poll.store.participants = .ok poll.participants)
    (houtcome : Round.Outcome settings.periodHistoryDepth poll taken kind event store) :
    Backed settings poll.params taken poll.store store kind (some event) := by
  cases houtcome with
  | noMajority hkind =>
    cases kind with
    | registration => exact absurd rfl hkind
    | collectObservation => rfl
    | estimateConsensus => rfl
    | reset => rfl
  | registered => exact registered_of_took h hallowed
  | observed ht hle => exact observed_of_took h hallowed ht hle
  | @estimated threshold price senders ht hle hsub hback =>
    refine ⟨threshold, ht, poll.participants, hparticipants, price, senders, hle, ?_,
      Store.appends_update _ _ _, ?_⟩
    · intro s hs
      exact ⟨SortedMap.mem_domain.1 (hsub hs), hback s hs⟩
    · apply mostVotedEstimate_of_value
      rw [Store.get?_update, if_pos rfl]
  | @reset opened hopen => exact ⟨opened, hopen, rfl⟩

end Poll

/-! ## The next block of any run -/

/-- A block that is not refused begins with its timestamp, which may fire a timeout and so enter
another round. The round that is then current decides at the end of the block, on the log since it
was entered. -/
theorem results_are_backed {settings : Settings} {participants : SortedSet String}
    {config : Config RoundKind} {start replica after : OracleReplica} {since : Nat} {block : Block}
    {answer : Except Error (BlockOutcome Event)}
    (hsetUp : SetUp settings participants config start)
    (hfollows : Replica.Follows start replica since)
    (hblock : replica.processBlock block = .ok (answer, after)) :
    (∀ e, answer = .error e → after = replica) ∧
      ∀ outcome, answer = .ok outcome → ∃ fired timed kind,
        replica.machine.updateTime block.header.timestamp = .ok (.ok fired, timed) ∧
        fired ≠ some .done ∧ timed.store = replica.machine.store ∧
        timed.currentKind = some kind ∧
        Backed settings config.params
          (Replica.committedSince Payload after.blocks
            (Replica.enteredAt fired replica.blocks.length since))
          timed.store after.machine.store kind outcome.event := by
  obtain ⟨_, _, first, hfirst, _⟩ := hsetUp.running
  have htracks := tracks settings config
  have htracked := hfollows.tracked htracks hfirst
  obtain ⟨current, hrunning⟩ := htracked.round
  constructor
  · rintro e rfl
    exact Replica.processBlock_eq_error htracks hrunning hblock
  · rintro outcome rfl
    obtain ⟨fired, timed, next, delivered, htime, htimed, hdelivered, hended, _⟩ :=
      htracked.stages htracks hblock
    have htimeout : fired ≠ some .done ∧ timed.store = replica.machine.store := by
      rcases hrunning.updateTime htime with ⟨hnone, hstays⟩ | ⟨event, moved, hsome, hevent, hstore,
        hmoves⟩
      · rw [Except.ok.inj hnone, hstays.store_eq, hrunning.store_eq]
        exact ⟨by simp, rfl⟩
      · rw [Except.ok.inj hsome, hmoves.store_eq, hrunning.store_eq, hstore]
        exact ⟨fun heq => hevent (Option.some.inj heq), rfl⟩
    refine ⟨fired, timed, next.1, htime, htimeout.1, htimeout.2, ?_, ?_⟩
    · obtain ⟨round, hround, _⟩ := htimed.round
      exact Machine.currentKind_of_current hround
    · obtain ⟨round, _, htook⟩ := hdelivered.round
      rw [htimed.store_eq]
      rcases hdelivered.endBlock hended with ⟨hnone, hstays⟩ | ⟨event, last, hsome, hresult, hmoves⟩
      · rw [Except.ok.inj hnone, hstays.store_eq]
        cases next with
        | mk kind poll => cases kind <;> rfl
      · rw [Except.ok.inj hsome, hmoves.store_eq, ← hdelivered.params_eq]
        exact backed_of_outcome htook.poll_took hdelivered.allowed_eq hdelivered.participants_eq
          hresult

/-- One estimates two, and the others one. -/
def estimates : Block :=
  ⟨⟨3, .ofSeconds 3⟩, sent "a" (.estimate ⟨0x4000000000000000⟩) ::
    ["b", "c", "d"].map (sent · (.estimate ⟨0x3ff0000000000000⟩))⟩

set_option synthInstance.maxSize 1000 in
/-- Three of four are enough. -/
theorem results_are_backed_by_three :
    ∃ start replica since after, SetUp {} fourAddresses fourConfig start ∧
      Replica.Follows start replica since ∧
      (∃ outcome, replica.processBlock estimates = .ok (.ok outcome, after) ∧
        outcome.event = some .done) ∧
      mostVotedEstimate after.machine.store = .ok ⟨0x3ff0000000000000⟩ ∧
      ∃ entered, Estimated fourConfig.params
        (Replica.committedSince Payload after.blocks entered) replica.machine.store
        after.machine.store := by
  have hrun : (({} : Settings).start? fourAddresses fourConfig).map (fun start =>
      (start.processAll untilEstimates).map fun (_, replica) =>
        ((replica.machine.updateTime (.ofSeconds 3)).map fun (_, timed) => timed.currentKind,
          (replica.processBlock estimates).map fun (answer, after) =>
            (answer.toOption.map BlockOutcome.event,
              (mostVotedEstimate after.machine.store).toOption))) =
      some (.ok (.ok (some .estimateConsensus),
        .ok (some (some .done), some ⟨0x3ff0000000000000⟩))) := by
    decide +kernel
  obtain ⟨start, ⟨outcomes, replica⟩, hsetUp, hall, hseen⟩ := exists_after hrun
  obtain ⟨htimed, hended⟩ := Prod.mk.inj hseen
  obtain ⟨⟨fired, timed⟩, htime, hkind⟩ := Checked.map_eq_ok_iff.1 htimed
  obtain ⟨⟨answer, after⟩, hblock, heq⟩ := Checked.map_eq_ok_iff.1 hended
  obtain ⟨hevent, hestimate⟩ := Prod.mk.inj heq
  obtain ⟨outcome, hanswer, hdone⟩ := Option.map_eq_some_iff.1 hevent
  obtain rfl := Checked.eq_ok_of_toOption hanswer
  obtain ⟨since, hfollows⟩ := Replica.Follows.start.processAll hall
  obtain ⟨fired', timed', kind, htime', _, hsame, hkind', hbacked⟩ :=
    (results_are_backed hsetUp hfollows hblock).2 outcome rfl
  cases htime.symm.trans htime'
  cases hkind.symm.trans hkind'
  rw [hdone, hsame] at hbacked
  exact ⟨start, replica, since, after, hsetUp, hfollows, ⟨outcome, hblock, hdone⟩,
    Checked.eq_ok_of_toOption hestimate, _, hbacked⟩

end QuorumRounds.PriceOracle
