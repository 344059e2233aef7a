import Csl.Agent.Approvals.Mutations
import Csl.Agent.Installation

/-! One approvals.json under the agent and the owner's command line.

Each party has a manager of its own; a method runs without interruption. Reading
methods resynchronise with the file and mutations do not, so a mutation is
applied to the file's contents when its manager is up to date, and overwrites
the other party's changes when it is not.
-/

set_option autoImplicit false

namespace Csl.Agent
open Csl.Shared ApprovalsManager Runs Installation

namespace Sharing

inductive Party where
  | agent | cli
  deriving DecidableEq, Repr

inductive Call where
  | construct
  | getState (name : String)
  | listAll
  | mutate (mutation : Mutation)
  deriving DecidableEq, Repr

structure Event where
  time : Timestamp
  caller : Party
  call : Call
  deriving DecidableEq, Repr

structure Shared where
  memory : Party → Memory
  disk : Disk

def Shared.world (s : Shared) (caller : Party) (now : Timestamp) : World :=
  ⟨s.memory caller, s.disk, now, []⟩

variable (host : Host) (autoApprove : Party → List String)

def Call.action (caller : Party) : Call → Action Unit
  | .construct => ApprovalsManager.init host
  | .getState name => do let _ ← ApprovalsManager.getState host name
  | .listAll => do let _ ← ApprovalsManager.listAll host
  | .mutate mutation => mutation.action host (autoApprove caller)

def serve (s : Shared) (event : Event) : Shared :=
  let after := (host.run (event.call.action host autoApprove event.caller)
    (s.world event.caller event.time)).2
  ⟨Function.update s.memory event.caller after.memory, after.disk⟩

def fresh : Shared := ⟨fun _ => World.fresh.memory, World.fresh.disk⟩

def applied (caller : Party) (mutation : Mutation) (s : Shared) (now : Timestamp) : ApprovalsStore :=
  let upToDate : World := ⟨⟨s.disk.loaded host, s.disk.currentSig host⟩, s.disk, now, []⟩
  (host.run (mutation.action host (autoApprove caller)) upToDate).2.disk.loaded host

/-- A mutating caller has the signature that approvals.json has now: no one saved since it
last loaded or saved. -/
def UpToDate (s : Shared) (event : Event) : Prop :=
  match event.call with
  | .mutate _ => (s.memory event.caller).sig = s.disk.currentSig host
  | _ => True

instance (s : Shared) (event : Event) : Decidable (UpToDate host s event) := by
  obtain ⟨_, _, call⟩ := event
  cases call <;> unfold UpToDate <;> infer_instance

/-- Every manager that has the file's signature has its contents, and no signature is ahead
of the clock of writes. -/
structure Coherent (s : Shared) : Prop where
  store : ∀ party, (s.memory party).sig = s.disk.currentSig host →
    (s.memory party).store = s.disk.loaded host
  past : ∀ party, (s.memory party).sig.1 ≤ s.disk.writes
  current : (s.disk.currentSig host).1 ≤ s.disk.writes

variable {host autoApprove} {s : Shared}

theorem coherent_fresh : Coherent host fresh := ⟨fun _ _ => rfl, fun _ => le_rfl, le_rfl⟩

def Honest (host : Host) (disk : Disk) (memory : Memory) : Prop :=
  (memory.sig = disk.currentSig host → memory.store = disk.loaded host) ∧
    memory.sig.1 ≤ disk.writes

theorem coherent_update {caller : Party} {memory : Memory} {disk : Disk}
    (own : Honest host disk memory)
    (others : ∀ party, party ≠ caller → Honest host disk (s.memory party))
    (current : (disk.currentSig host).1 ≤ disk.writes) :
    Coherent host ⟨Function.update s.memory caller memory, disk⟩ := by
  have each : ∀ party, Honest host disk (Function.update s.memory caller memory party) := by
    intro party
    by_cases same : party = caller
    · subst same
      rwa [Function.update_self]
    · rw [Function.update_of_ne same]
      exact others party same
  exact ⟨fun party => (each party).1, fun party => (each party).2, current⟩

/-- A call that leaves the files alone leaves its manager as it was or resynchronised. -/
theorem coherent_reread (coherent : Coherent host s) (caller : Party) {memory : Memory}
    (reread : memory = s.memory caller ∨ memory = ⟨s.disk.loaded host, s.disk.currentSig host⟩) :
    Coherent host ⟨Function.update s.memory caller memory, s.disk⟩ := by
  have each : ∀ party, Honest host s.disk (s.memory party) :=
    fun party => ⟨coherent.store party, coherent.past party⟩
  apply coherent_update _ (fun party _ => each party) coherent.current
  rcases reread with rfl | rfl
  · exact each caller
  · exact ⟨fun _ => rfl, coherent.current⟩

/-- After a save the caller is up to date and no one else is. -/
theorem coherent_saved (coherent : Coherent host s) (caller : Party) {disk : Disk}
    (later : s.disk.writes ≤ disk.writes) (store : ApprovalsStore) :
    Coherent host ⟨Function.update s.memory caller
      ⟨store, (disk.saved host store).currentSig host⟩, disk.saved host store⟩ := by
  have writes : (disk.saved host store).writes = disk.writes + 1 := rfl
  have current := currentSig_saved host disk store
  apply coherent_update
  · exact ⟨fun _ => (Disk.loaded_saved store).symm, by rw [current, writes]⟩
  · intro party _
    have past := coherent.past party
    constructor
    · intro same
      have stamp := congrArg Prod.fst same
      omega
    · omega
  · omega

theorem coherent_serve (coherent : Coherent host s) (event : Event) :
    Coherent host (serve host autoApprove s event) := by
  obtain ⟨now, caller, call⟩ := event
  have resynced : ∀ w : World, w = s.world caller now →
      Coherent host ⟨Function.update s.memory caller (w.resynced host).memory,
        (w.resynced host).disk⟩ := by
    rintro w rfl
    unfold World.resynced
    split
    · exact coherent_reread coherent caller (.inl rfl)
    · exact coherent_reread coherent caller (.inr rfl)
  cases call with
  | construct =>
    simp only [serve, Call.action, run_init]
    exact coherent_reread coherent caller (.inr rfl)
  | getState name =>
    simp only [serve, Call.action, Proc.run_bind, run_getState, Proc.follow_ok, Proc.run_pure]
    exact resynced _ rfl
  | listAll =>
    simp only [serve, Call.action, Proc.run_bind, run_listAll, Proc.follow_ok, Proc.run_pure]
    exact resynced _ rfl
  | mutate mutation =>
    simp only [serve, Call.action]
    rcases mutation.run_cases (autoApprove caller) (s.world caller now) with same | effective
    · rw [same]
      exact coherent_reread coherent caller (.inl rfl)
    · rw [Mutation.run_effective effective]
      exact coherent_saved coherent caller (writes_finished _ _ _ _) _

theorem coherent_run (host : Host) (autoApprove : Party → List String) (events : List Event) :
    Coherent host (run (serve host autoApprove) fresh events) :=
  invariant_run_of_forall (Coherent host) (fun _ event coherent => coherent_serve coherent event)
    coherent_fresh events

/-- A caller that is up to date applies its mutation to the contents of the file. -/
theorem contents_serve (coherent : Coherent host s) {event : Event} {mutation : Mutation}
    (call : event.call = .mutate mutation) (upToDate : UpToDate host s event) :
    (serve host autoApprove s event).disk.loaded host =
      applied host autoApprove event.caller mutation s event.time := by
  rw [UpToDate, call] at upToDate
  have memory : s.memory event.caller = ⟨s.disk.loaded host, s.disk.currentSig host⟩ := by
    have store := coherent.store event.caller upToDate
    rw [← upToDate, ← store]
  simp only [serve, call, Call.action, Shared.world, memory, applied]

theorem serve_effective {now : Timestamp} {caller : Party} {mutation : Mutation}
    (effective : mutation.Effective host (s.world caller now)) :
    let store := mutation.newStore (autoApprove caller) (s.world caller now)
    let disk := (mutation.finished host (autoApprove caller) s.disk).saved host store
    serve host autoApprove s ⟨now, caller, .mutate mutation⟩ =
      ⟨Function.update s.memory caller ⟨store, disk.currentSig host⟩, disk⟩ := by
  simp only [serve, Call.action, Mutation.run_effective effective, World.saved]
  rfl

theorem serve_construct (now : Timestamp) (caller : Party) :
    serve host autoApprove s ⟨now, caller, .construct⟩ =
      ⟨Function.update s.memory caller ⟨s.disk.loaded host, s.disk.currentSig host⟩, s.disk⟩ := by
  simp only [serve, Call.action, run_init, Shared.world]

/-- A mutation that takes effect on a copy that disagrees with the file about another name
overwrites what the file said about that name. -/
theorem stale_call_overwrites {now : Timestamp} {caller : Party} {mutation : Mutation}
    {other : String} (effective : mutation.Effective host (s.world caller now))
    (apart : other ≠ mutation.name)
    (disagree : (s.memory caller).store.scripts.get? other ≠ (s.disk.loaded host).scripts.get? other) :
    (serve host autoApprove s ⟨now, caller, .mutate mutation⟩).disk.loaded host ≠
      applied host autoApprove caller mutation s now := by
  intro same
  let upToDate : World := ⟨⟨s.disk.loaded host, s.disk.currentSig host⟩, s.disk, now, []⟩
  have written : ((serve host autoApprove s ⟨now, caller, .mutate mutation⟩).disk.loaded
      host).scripts.get? other = (s.memory caller).store.scripts.get? other := by
    have kept := mutation.record_run_of_ne host (autoApprove caller) (s.world caller now) apart
    rw [Mutation.run_effective effective] at kept
    rw [serve_effective effective, Disk.loaded_saved]
    exact kept
  have expected : (applied host autoApprove caller mutation s now).scripts.get? other =
      (s.disk.loaded host).scripts.get? other := by
    have kept := mutation.record_run_of_ne host (autoApprove caller) upToDate apart
    have synced : upToDate.Synced host := ⟨rfl, rfl⟩
    rw [applied, ← (mutation.synced_run synced).store]
    exact kept
  rw [same, expected] at written
  exact disagree written.symm

/-! ## An approval and a later stage -/

def stageDeploy : Mutation := .stage "deploy" scriptOne md5One none

def stageBackup : Mutation := .stage "backup" scriptTwo md5Two none

def stagedOnAgent : List Event :=
  [⟨"1", .agent, .mutate stageDeploy⟩, ⟨"2", .cli, .construct⟩]

theorem stagedOnAgent_reached (host : Host) :
    let reached := run (serve host fun _ => []) fresh stagedOnAgent
    (∀ party, (reached.memory party).store = waitingStore) ∧
      (reached.memory .cli).sig = reached.disk.currentSig host ∧
      (reached.disk.text? host (.pending "deploy")).isSome := by
  have staging : stageDeploy.Effective host (fresh.world .agent "1") := by
    constructor <;> decide
  simp only [stagedOnAgent, run_cons, run_nil]
  rw [serve_effective staging, serve_construct]
  refine ⟨fun party => ?_, rfl, ?_⟩
  · cases party with
    | agent => rfl
    | cli =>
      simp only [Function.update_self, Disk.loaded_saved]
      rfl
  · simp [stageDeploy, Mutation.finished, Disk.text?_staged]

theorem approvedOnCli_reached (host : Host) :
    let reached := run (serve host fun _ => []) fresh
      (stagedOnAgent ++ [⟨"3", .cli, .mutate (.approve "deploy")⟩])
    (reached.memory .agent).store = waitingStore ∧
      (reached.disk.loaded host).stateOf "deploy" = .approved := by
  obtain ⟨stores, _, pending⟩ := stagedOnAgent_reached host
  rw [run_snoc]
  generalize run (serve host fun _ => []) fresh stagedOnAgent = reached at *
  have approving : (Mutation.approve "deploy").Effective host (reached.world .cli "3") := by
    refine ⟨⟨{ state := .pending, pendingMd5 := some md5One }, ?_, .inl rfl⟩, pending⟩
    rw [World.record, Shared.world, stores .cli]
    rfl
  rw [serve_effective approving]
  refine ⟨stores .agent, ?_⟩
  rw [Disk.loaded_saved]
  simp [Mutation.newStore, ApprovalsStore.stateOf]

end Sharing

end Csl.Agent
