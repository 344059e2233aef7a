import Csl.Server.Fleet.Heeding

/-! Where everything that runs on a target comes from.

A script runs because a user who may use the machine has submitted it, in a version that was once in
the library under its name, and because that version was approved on that machine. This holds however
the requests and the owners' commands interleave, with copies of approvals.json out of date and with
requests lost on their way.
-/

set_option autoImplicit false

namespace Csl.Server
open Csl.Shared Csl.Agent ApprovalsManager Proc Runs Vouching

namespace Fleets
variable {platform : Platform} {Place : Type} [DecidableEq Place]

abbrev Turns (platform : Platform) (Place : Type) := List (Turn (Change platform Place))

section
variable (place : Machine → Place) (visits : Nat → Visit) (begin : Scene platform Place)

def Once (past : Turns platform Place) (holds : Fleet platform Place → Prop) : Prop :=
  ∃ before after, past = before ++ after ∧ holds (reached platform place visits begin before).shared

/-- The turns that make an md5 the approved one: the owner's approve of the version that waits in the
manager's copy, or a handler's stage of a name on the agent's auto-approve list, when it arrives and is
neither refused nor a repetition. -/
def Approves (scene : Scene platform Place) (target : Place) (name md5 : String) : Turn (Change platform Place) → Prop
  | .outside (.owner owned (.approve approved)) => owned = target ∧ approved = name ∧
      (Mutation.approve name).Effective platform.host
        ((scene.shared.targets target).shared.world .cli scene.shared.now) ∧
      ∃ record, ((scene.shared.targets target).shared.memory .cli).store.scripts.get? name = some record ∧
        record.pendingMd5 = some md5
  | .serve number => name ∈ (scene.shared.targets target).autoApprove ∧ EndpointName name ∧
      scene.shared.network.reaches = true ∧
      ∃ machine content metaYaml k log, scene.shared.tunnels number = some machine ∧ place machine = target ∧
        scene.activities number = some ⟨.call (.send (.stageScript name content md5 metaYaml)) k, log⟩ ∧
        (Mutation.stage name content md5 metaYaml).Effective platform.host
          ((scene.shared.targets target).world scene.shared.now)
  | _ => False

def Approved (past : Turns platform Place) (target : Place) (name md5 : String) : Prop :=
  ∃ before turn after, past = before ++ turn :: after ∧
    Approves place (reached platform place visits begin before) target name md5 turn

def Stands (scene : Scene platform Place) (target : Place) (name md5 : String) : Prop :=
  ∃ record, ((scene.shared.targets target).shared.disk.loaded platform.host).scripts.get? name = some record ∧
    record.state = .approved ∧ record.approvedMd5 = some md5

def launches (scene : Scene platform Place) (turn : Turn (Change platform Place)) (target : Place) : List Launch :=
  ((step platform place visits scene turn).shared.targets target).launched.drop
    (scene.shared.targets target).launched.length

/-- A launch is that of a version which was in the library, was approved, and is the approved one in
approvals.json. -/
structure Approval (past : Turns platform Place) (target : Place) (launch : Launch) (version : Script) : Prop where
  published : Once place visits begin past fun s => s.tables.scripts.find launch.script = some version
  content : launch.content.map platform.host.md5 = some (platform.host.md5 version.content)
  approved : Approved place visits begin past target launch.script version.md5
  stands : Stands (reached platform place visits begin past) target launch.script version.md5

/-- A submission asks for a launch on a machine that its user may use. -/
structure Asked (past : Turns platform Place) (target : Place) (launch : Launch) (submission : Submission) : Prop where
  script : launch.script = submission.scriptName
  machine : ∃ machine, place machine = target ∧
    Once place visits begin past fun s => s.tables.machines.get? submission.machineId = some machine
  admitted : submission.user.role = .admin ∨
    Once place visits begin past fun s => (submission.user.id, submission.machineId) ∈ s.tables.bookmarks

/-! ## What holds of the past -/

def Offered (past : Turns platform Place) : Versions := fun name md5 =>
  ∃ version, Once place visits begin past (fun s => s.tables.scripts.find name = some version) ∧ version.md5 = md5

def Granted (past : Turns platform Place) (target : Place) : Versions := fun name md5 =>
  Approved place visits begin past target name md5 ∧ Offered place visits begin past name md5

abbrev disciplines : Nat → Discipline Op Reply Failure Knowledge := fun number => discipline (visits number)

abbrev knows (scene : Scene platform Place) (number : Nat) : Knowledge :=
  Pool.knows (disciplines visits) .nothing (handle platform place) scene number

structure Read (past : Turns platform Place) (visit : Visit) (known : Knowledge) : Prop where
  script : ∀ script, known.script = some script →
    Once place visits begin past fun s => s.tables.scripts.find script.name = some script
  machine : ∀ submission ∈ visit.submission, ∀ machine, known.machine = some machine →
    Once place visits begin past fun s => s.tables.machines.get? submission.machineId = some machine
  bookmarked : ∀ submission ∈ visit.submission, known.bookmarked = true →
    Once place visits begin past fun s => (submission.user.id, submission.machineId) ∈ s.tables.bookmarks

structure Sound (past : Turns platform Place) (scene : Scene platform Place) : Prop where
  coherent : ∀ target, Sharing.Coherent platform.host (scene.shared.targets target).shared
  vouched : ∀ target, AllVouched platform.host (Offered place visits begin past) (Granted place visits begin past target)
    (scene.shared.targets target).shared
  heed : Pool.AllHeed (disciplines visits) .nothing (handle platform place) scene
  read : ∀ number, Read place visits begin past (visits number) (knows place visits scene number)
  tunnels : ∀ number, scene.shared.tunnels number = (knows place visits scene number).tunnel

end

variable {place : Machine → Place} {visits : Nat → Visit} {begin : Scene platform Place}
  {past : Turns platform Place}

theorem Once.later {holds : Fleet platform Place → Prop} (once : Once place visits begin past holds)
    (rest : Turns platform Place) : Once place visits begin (past ++ rest) holds := by
  obtain ⟨before, after, split, held⟩ := once
  refine ⟨before, after ++ rest, ?_, held⟩
  rw [split, List.append_assoc]

theorem once_now {holds : Fleet platform Place → Prop}
    (now : holds (reached platform place visits begin past).shared) : Once place visits begin past holds :=
  ⟨past, [], (List.append_nil past).symm, now⟩

theorem Approved.later {target : Place} {name md5 : String} (approved : Approved place visits begin past target name md5)
    (rest : Turns platform Place) : Approved place visits begin (past ++ rest) target name md5 := by
  obtain ⟨before, turn, after, split, approves⟩ := approved
  refine ⟨before, turn, after ++ rest, ?_, approves⟩
  rw [split, List.append_assoc]
  rfl

theorem approved_now {target : Place} {name md5 : String} {turn : Turn (Change platform Place)}
    (approves : Approves place (reached platform place visits begin past) target name md5 turn) :
    Approved place visits begin (past ++ [turn]) target name md5 := ⟨past, turn, [], rfl, approves⟩

theorem Read.later {visit : Visit} {known : Knowledge} (read : Read place visits begin past visit known)
    (rest : Turns platform Place) : Read place visits begin (past ++ rest) visit known :=
  ⟨fun script found => (read.script script found).later rest,
    fun submission asked machine found => (read.machine submission asked machine found).later rest,
    fun submission asked found => (read.bookmarked submission asked found).later rest⟩

theorem offered_later (rest : Turns platform Place) {name md5 : String} (offered : Offered place visits begin past name md5) :
    Offered place visits begin (past ++ rest) name md5 := by
  obtain ⟨version, once, same⟩ := offered
  exact ⟨version, once.later rest, same⟩

theorem vouched_later {target : Place} {s : Sharing.Shared} (rest : Turns platform Place)
    (vouched : AllVouched platform.host (Offered place visits begin past) (Granted place visits begin past target) s) :
    AllVouched platform.host (Offered place visits begin (past ++ rest))
      (Granted place visits begin (past ++ rest) target) s :=
  vouched.mono (fun _ _ => offered_later rest)
    fun _ _ granted => ⟨granted.1.later rest, offered_later rest granted.2⟩

/-! ## The agent serves a request -/

section
variable {target : Target} {now : Timestamp}

theorem acts_world (target : Target) (now : Timestamp) : Acts target.shared .agent (target.world now) := ⟨rfl, rfl⟩

theorem answer_submitJob (platform : Platform) (autoApprove : Sharing.Party → List String) (body : JobRequest) (w : World) :
    (platform.host.run (answer platform autoApprove (.submitJob body)) w).2 =
      (platform.host.run (submitJob platform.host body) w).2 := by
  simp only [answer, run_bind]
  rcases ran : platform.host.run (submitJob platform.host body) w with ⟨e | found, after⟩
  · simp only [ran, follow_error]
  · simp only [ran, follow_ok, run_pure]

theorem answer_getScriptState (platform : Platform) (autoApprove : Sharing.Party → List String) (name : String) (w : World) :
    (platform.host.run (answer platform autoApprove (.getScriptState name)) w).2 = w ∨
      (platform.host.run (answer platform autoApprove (.getScriptState name)) w).2 = w.resynced platform.host := by
  by_cases endpoint : EndpointName name
  · simp [answer, getScriptState, endpoint, run_getState]
  · simp [answer, getScriptState, endpoint]

/-- Staging under a name that has an endpoint is one mutation, whatever is answered. -/
theorem answer_staged (platform : Platform) (autoApprove : Sharing.Party → List String) {name : String} (content md5 : String)
    (metaYaml : Option String) (w : World) (endpoint : EndpointName name) :
    (platform.host.run (answer platform autoApprove (.stageScript name content md5 metaYaml)) w).2 =
      (platform.host.run ((Mutation.stage name content md5 metaYaml).action platform.host (autoApprove .agent)) w).2 := by
  simp only [answer, stageScript, if_pos endpoint, Mutation.action, run_bind, run_tryCatch]
  rcases ran : platform.host.run (stage platform.host (autoApprove .agent) name content md5 metaYaml) w with
    ⟨e | state, after⟩
  · simp only [ran, recoverWith_error, run_throw, follow_error]
  · simp only [ran, recoverWith_ok, follow_ok, run_pure]

theorem answer_stageScript (platform : Platform) (autoApprove : Sharing.Party → List String) (name content md5 : String)
    (metaYaml : Option String) (w : World) :
    (platform.host.run (answer platform autoApprove (.stageScript name content md5 metaYaml)) w).2 = w ∨
      EndpointName name ∧
        (platform.host.run (answer platform autoApprove (.stageScript name content md5 metaYaml)) w).2 =
          (platform.host.run ((Mutation.stage name content md5 metaYaml).action platform.host (autoApprove .agent)) w).2 := by
  by_cases endpoint : EndpointName name
  · exact .inr ⟨endpoint, answer_staged platform autoApprove content md5 metaYaml w endpoint⟩
  · left
    simp [answer, stageScript, endpoint]

/-- What serving a request does to the approvals: the agent looks at them, or stages. -/
theorem serve_shared (target : Target) (now : Timestamp) (request : Request) :
    (∃ after, Looked platform.host (target.world now) after ∧
      (target.serve platform now request).2.shared = left target.shared .agent after) ∨
    ∃ name content md5 metaYaml, request = .stageScript name content md5 metaYaml ∧ EndpointName name ∧
      (target.serve platform now request).2.shared = left target.shared .agent
        (platform.host.run ((Mutation.stage name content md5 metaYaml).action platform.host target.autoApprove)
          (target.world now)).2 := by
  cases request with
  | healthz | getJobStatus | killJob | streamJobLogs => exact .inl ⟨_, .refl _, rfl⟩
  | getScriptState name =>
    refine .inl ⟨_, ?_, rfl⟩
    rcases answer_getScriptState platform (fun _ => target.autoApprove) name (target.world now) with
      same | looked
    · rw [same]
      exact .refl _
    · rw [looked]
      exact looked_resynced _ _
  | submitJob body =>
    refine .inl ⟨_, ?_, rfl⟩
    rw [answer_submitJob]
    exact looks_submitJob body _
  | stageScript name content md5 metaYaml =>
    rcases answer_stageScript platform (fun _ => target.autoApprove) name content md5 metaYaml
      (target.world now) with same | ⟨endpoint, staged⟩
    · refine .inl ⟨_, ?_, rfl⟩
      rw [same]
      exact .refl _
    · refine .inr ⟨name, content, md5, metaYaml, rfl, endpoint, ?_⟩
      exact congrArg (left target.shared .agent) staged

/-- Only a posted job launches anything. -/
theorem serve_launched (target : Target) (now : Timestamp) (request : Request)
    (inLogs : ∀ body, request = .submitJob body → InLogs platform.host body.jobUuid) :
    (target.serve platform now request).2.launched = target.launched ∨
      ∃ body launch, request = .submitJob body ∧ Carries platform.host (target.world now) body launch ∧
        (target.serve platform now request).2.launched = target.launched ++ [launch] := by
  cases request with
  | healthz | getJobStatus | killJob | streamJobLogs => exact .inl rfl
  | getScriptState name =>
    left
    rcases answer_getScriptState platform (fun _ => target.autoApprove) name (target.world now) with
      same | looked
    · exact congrArg (·.launched) same
    · exact (congrArg (·.launched) looked).trans (launched_resynced _ _)
  | stageScript name content md5 metaYaml =>
    left
    rcases answer_stageScript platform (fun _ => target.autoApprove) name content md5 metaYaml
      (target.world now) with same | ⟨-, staged⟩
    · exact congrArg (·.launched) same
    · exact (congrArg (·.launched) staged).trans (Mutation.launched_run _ _)
  | submitJob body =>
    have after := answer_submitJob platform (fun _ => target.autoApprove) body (target.world now)
    have ends := submitJob_ends (w := target.world now) (inLogs body rfl)
    rw [← after] at ends
    generalize (platform.host.run (submitJob platform.host body) (target.world now)).1 = result at ends
    cases ends with
    | refused kept => exact .inl kept
    | @launched _ _ launch more carries => exact .inr ⟨body, launch, rfl, carries, more⟩

end

/-! ## The owner, and the agent's start -/

theorem call_shared (platform : Platform) (target : Target) (now : Timestamp) (party : Sharing.Party) (call : Sharing.Call) :
    (∃ after, Looked platform.host (target.shared.world party now) after ∧
      (target.call platform.host now party call).shared = left target.shared party after) ∨
    ∃ mutation, call = .mutate mutation ∧
      (target.call platform.host now party call).shared = left target.shared party
        (platform.host.run (mutation.action platform.host target.autoApprove) (target.shared.world party now)).2 := by
  cases call with
  | mutate mutation => exact .inr ⟨mutation, rfl, rfl⟩
  | construct =>
    refine .inl ⟨_, ?_, rfl⟩
    simp only [Sharing.Call.action, run_init]
    exact ⟨.inr rfl, rfl, le_rfl⟩
  | getState name =>
    refine .inl ⟨_, ?_, rfl⟩
    simp only [Sharing.Call.action, run_bind, run_getState, follow_ok, run_pure]
    exact looked_resynced _ _
  | listAll =>
    refine .inl ⟨_, ?_, rfl⟩
    simp only [Sharing.Call.action, run_bind, run_listAll, follow_ok, run_pure]
    exact looked_resynced _ _

/-! ## What the handlers know -/

section
variable {number : Nat} {op : Op} {known : Knowledge} {s : Fleet platform Place} {visit : Visit}

@[simp] theorem tunnels_put (s : Fleet platform Place) (name : Place) (target : Target) :
    (s.put name target).tunnels = s.tunnels := rfl

theorem tunnels_send (request : Request) (s : Fleet platform Place) :
    (handle platform place number (.send request) s).2.tunnels = s.tunnels := by
  rw [handle]
  split
  · unfold deliver
    split <;> rfl
  · rfl

theorem tunnels_handle (place : Machine → Place) (op : Op) (same : s.tunnels number = known.tunnel) (other : Nat) :
    (handle platform place number op s).2.tunnels other =
      if other = number then (known.learn op (handle platform place number op s).1).tunnel else s.tunnels other := by
  have unchanged : ∀ after : Fleet platform Place, after.tunnels = s.tunnels →
      after.tunnels other = if other = number then known.tunnel else s.tunnels other := by
    intro after kept
    rw [kept]
    split
    next own => rw [own, same]
    · rfl
  cases op with
  | query statement =>
    have kept : ∀ reply, (known.learn (.query statement) reply).tunnel = known.tunnel := by
      intro reply
      unfold Knowledge.learn
      split <;> first | rfl | contradiction
    rw [kept]
    exact unchanged _ rfl
  | utcNow | ensureAgentRunning | streamLogs => exact unchanged _ rfl
  | send request =>
    have kept : ∀ reply, (known.learn (.send request) reply).tunnel = known.tunnel := by
      intro reply
      cases request <;> rfl
    rw [kept]
    exact unchanged _ (tunnels_send request s)
  | closeTunnel =>
    simp only [handle, Function.update_apply]
    split <;> rfl
  | openTunnel machine =>
    simp only [handle]
    -- a connection that fails opens no tunnel, and the handler knows that
    cases s.network.connects with
    | error e => exact unchanged _ rfl
    | ok _ =>
      simp only [Function.update_apply]
      split <;> rfl

/-- What a reply teaches is so in the state that the call was served in. -/
theorem read_learn (read : Read place visits begin past visit known) (allowed : Allowed visit known op) :
    Read place visits begin past visit (known.learn op
      (handle platform place number op (reached platform place visits begin past).shared).1) := by
  cases op with
  | query statement =>
    cases statement with
    | findMachine machineId =>
      change Read _ _ _ _ _ (known.learn (.query (.findMachine machineId))
        (.ok ((reached platform place visits begin past).shared.tables.machines.get? machineId)))
      cases found : (reached platform place visits begin past).shared.tables.machines.get? machineId with
      | none => exact read
      | some machine =>
        refine ⟨read.script, ?_, read.bookmarked⟩
        rintro submission asked _ ⟨⟩
        apply once_now
        rw [← allowed submission asked]
        exact found
    | findBookmark userId machineId =>
      change Read _ _ _ _ _ (known.learn (.query (.findBookmark userId machineId))
        (.ok (decide ((userId, machineId) ∈ (reached platform place visits begin past).shared.tables.bookmarks))))
      cases found : decide ((userId, machineId) ∈ (reached platform place visits begin past).shared.tables.bookmarks) with
      | false => exact read
      | true =>
        refine ⟨read.script, read.machine, ?_⟩
        intro submission asked _
        apply once_now
        rw [← (allowed submission asked).1, ← (allowed submission asked).2]
        exact of_decide_eq_true found
    | findScript name =>
      change Read _ _ _ _ _ (known.learn (.query (.findScript name))
        (.ok ((reached platform place visits begin past).shared.tables.scripts.find name)))
      cases found : (reached platform place visits begin past).shared.tables.scripts.find name with
      | none => exact read
      | some script =>
        refine ⟨?_, read.machine, read.bookmarked⟩
        rintro _ ⟨⟩
        apply once_now
        -- the row is looked up by the name that was asked for, and filed under its own
        have named := (reached platform place visits begin past).shared.tables.scripts.named name script found
        rw [named]
        exact found
    | _ => exact read
  | openTunnel machine =>
    simp only [handle]
    cases (reached platform place visits begin past).shared.network.connects with
    | error e => exact read
    | ok _ => exact ⟨read.script, read.machine, read.bookmarked⟩
  | closeTunnel => exact ⟨read.script, read.machine, read.bookmarked⟩
  | send request => cases request <;> first | exact read | exact ⟨read.script, read.machine, read.bookmarked⟩
  | _ => exact read

theorem targets_handle (place : Machine → Place) (number : Nat) (op : Op) (s : Fleet platform Place) (name : Place) :
    (handle platform place number op s).2.targets name = s.targets name ∨
      ∃ request machine, op = .send request ∧ s.tunnels number = some machine ∧ place machine = name ∧
        s.network.reaches = true ∧
        (handle platform place number op s).2.targets name = ((s.targets name).serve platform s.now request).2 := by
  cases op with
  | query | utcNow | closeTunnel | ensureAgentRunning | streamLogs => exact .inl rfl
  | openTunnel machine =>
    left
    simp only [handle]
    cases s.network.connects <;> rfl
  | send request =>
    simp only [handle]
    cases tunnel : s.tunnels number with
    | none => exact .inl rfl
    | some machine =>
      simp only [deliver]
      split
      next reaches =>
        by_cases here : place machine = name
        · refine .inr ⟨request, machine, rfl, rfl, here, reaches, ?_⟩
          subst here
          exact Function.update_self _ _ _
        · exact .inl (Function.update_of_ne (Ne.symm here) _ _)
      · exact .inl rfl

end

/-! ## Every scene is sound -/

section
variable {number : Nat} {op : Op} {k : Except Failure (Reply op) → Task Unit} {log : Log Op (Fleet platform Place)}

theorem coherent_served (sound : Sound place visits begin past (reached platform place visits begin past)) (name : Place) :
    Sharing.Coherent platform.host
      ((handle platform place number op (reached platform place visits begin past).shared).2.targets name).shared := by
  rcases targets_handle place number op (reached platform place visits begin past).shared name with same | ⟨request, machine, -, -, -, -, served⟩
  · rw [same]
    exact sound.coherent name
  · rw [served]
    rcases serve_shared ((reached platform place visits begin past).shared.targets name) _ request with
      ⟨after, looked, left⟩ | ⟨_, _, _, _, -, -, left⟩
    · rw [left]
      exact coherent_looked (sound.coherent name) (acts_world _ _) looked
    · rw [left]
      exact coherent_mutated (sound.coherent name) (acts_world _ _) _

/-- A handler stages what it has read, so only canonical versions come to wait or to be approved. -/
theorem vouched_served (sound : Sound place visits begin past (reached platform place visits begin past))
    (called : (reached platform place visits begin past).activities number = some ⟨.call op k, log⟩) (name : Place) :
    AllVouched platform.host (Offered place visits begin (past ++ [.serve number]))
      (Granted place visits begin (past ++ [.serve number]) name)
      ((handle platform place number op (reached platform place visits begin past).shared).2.targets name).shared := by
  have before := vouched_later [.serve number] (sound.vouched name)
  rcases targets_handle place number op (reached platform place visits begin past).shared name with same | ⟨request, machine, rfl, tunnel, here, reaches, served⟩
  · rw [same]
    exact before
  · rw [served]
    rcases serve_shared ((reached platform place visits begin past).shared.targets name) _ request with
      ⟨after, looked, left⟩ | ⟨staged, content, md5, metaYaml, rfl, endpoint, left⟩
    · rw [left]
      exact allVouched_looked before (acts_world _ _) looked
    · -- what is staged is the row that the handler has read
      obtain ⟨script, reads, rfl, -, rfl⟩ := Pool.heed_allowed sound.heed called
      have offered : Offered place visits begin (past ++ [.serve number]) script.name script.md5 :=
        ⟨script, ((sound.read number).script script reads).later _, rfl⟩
      rw [left]
      apply allVouched_mutated before (acts_world _ _)
      · rintro _ _ ⟨rfl, rfl⟩
        exact offered
      · rintro effective _ _ ⟨rfl, rfl, auto⟩
        exact ⟨approved_now ⟨auto, endpoint, reaches, machine, content, metaYaml, k, log, tunnel, here, called, effective⟩,
          offered⟩

end

theorem coherent_call {target : Target} (now : Timestamp) (party : Sharing.Party) (call : Sharing.Call)
    (coherent : Sharing.Coherent platform.host target.shared) :
    Sharing.Coherent platform.host (target.call platform.host now party call).shared :=
  Sharing.coherent_serve coherent _

theorem vouched_call {offered granted : Versions} {target : Target} (now : Timestamp) (party : Sharing.Party)
    (call : Sharing.Call) (vouched : AllVouched platform.host offered granted target.shared)
    (offers : ∀ mutation, call = .mutate mutation → ∀ name md5, Offers mutation name md5 → offered name md5)
    (grants : ∀ mutation, call = .mutate mutation → mutation.Effective platform.host (target.shared.world party now) →
      ∀ name md5, Grants target.autoApprove (target.shared.memory party).store mutation name md5 → granted name md5) :
    AllVouched platform.host offered granted (target.call platform.host now party call).shared := by
  rcases call_shared platform target now party call with ⟨after, looked, left⟩ | ⟨mutation, rfl, left⟩
  · rw [left]
    exact allVouched_looked vouched ⟨rfl, rfl⟩ looked
  · rw [left]
    exact allVouched_mutated vouched ⟨rfl, rfl⟩ (offers mutation rfl) (grants mutation rfl)

theorem coherent_outside (change : Change platform Place) {s : Fleet platform Place}
    (coherent : ∀ name, Sharing.Coherent platform.host (s.targets name).shared) (name : Place) :
    Sharing.Coherent platform.host ((outside platform change s).targets name).shared := by
  have updated : ∀ changed target, Sharing.Coherent platform.host target.shared →
      Sharing.Coherent platform.host ((s.put changed target).targets name).shared := by
    intro changed target fine
    by_cases here : name = changed
    · subst here
      simpa only [Fleet.put, Function.update_self] using fine
    · simpa only [Fleet.put, Function.update_of_ne here] using coherent name
  cases change with
  | clock | network | edit | others => exact coherent name
  | owner changed call => exact updated changed _ (coherent_call _ _ _ (coherent changed))
  | restart changed autoApprove => exact updated changed _ (coherent_call _ _ _ (coherent changed))

theorem vouched_outside (sound : Sound place visits begin past (reached platform place visits begin past))
    (change : Change platform Place) (name : Place) :
    AllVouched platform.host (Offered place visits begin (past ++ [.outside change]))
      (Granted place visits begin (past ++ [.outside change]) name)
      ((outside platform change (reached platform place visits begin past).shared).targets name).shared := by
  have before := vouched_later [.outside change] (sound.vouched name)
  cases change with
  | clock | network | edit | others => exact before
  | owner changed call =>
    simp only [outside, Fleet.put]
    by_cases here : name = changed
    · subst here
      rw [Function.update_self]
      apply vouched_call _ _ _ before
      · intro mutation same other md5 offers
        cases call <;> cases same <;> exact offers.elim
      · intro mutation same effective other md5 grants
        cases call with
        | construct | list => cases same
        | reject | clear =>
          cases same
          exact grants.elim
        | approve approved =>
          -- what the owner approves was waiting, so it was staged, so it was once in the library
          cases same
          obtain ⟨rfl, record, found, -, waits⟩ := grants
          refine ⟨approved_now ⟨rfl, rfl, effective, record, found, waits⟩, ?_⟩
          exact offered_later _ (((sound.vouched name).copies .cli _ _ found).pending md5 waits)
    · rw [Function.update_of_ne here]
      exact before
  | restart changed autoApprove =>
    simp only [outside, Fleet.put]
    by_cases here : name = changed
    · subst here
      rw [Function.update_self]
      -- an agent that starts constructs its manager, which mutates nothing
      change AllVouched _ _ _ (Target.call _ _ _ .construct
        { (reached platform place visits begin past).shared.targets name with autoApprove }).shared
      apply vouched_call _ _ _ before <;> intro _ same <;> cases same
    · rw [Function.update_of_ne here]
      exact before

theorem sound_step (sound : Sound place visits begin past (reached platform place visits begin past))
    (turn : Turn (Change platform Place)) :
    Sound place visits begin (past ++ [turn]) (step platform place visits (reached platform place visits begin past) turn) := by
  -- that the handlers heed what they know needs nothing of the targets; the rest goes by the kind of turn
  have heed : Pool.AllHeed (disciplines visits) .nothing (handle platform place)
      (step platform place visits (reached platform place visits begin past) turn) :=
    Pool.heed_step (fun number => heeds_task platform (visits number)) (fun _ _ => trivial) sound.heed
  have moved := Pool.step_moved (fun number => (visits number).task platform) (handle platform place) (outside platform)
    (reached platform place visits begin past) turn
  change Pool.Moved _ _ _ _ _ (step platform place visits (reached platform place visits begin past) turn) at moved
  generalize step platform place visits (reached platform place visits begin past) turn = after at heed moved ⊢
  cases moved with
  | idle =>
    exact ⟨sound.coherent, fun name => vouched_later _ (sound.vouched name), heed, fun number => (sound.read number).later _,
      sound.tunnels⟩
  | @started number free =>
    have same : ∀ other, knows place visits ((reached platform place visits begin past).put number
        ⟨(visits number).task platform, []⟩) other = knows place visits (reached platform place visits begin past) other :=
      Pool.knows_started free
    refine ⟨sound.coherent, fun name => vouched_later _ (sound.vouched name), heed, fun other => ?_, fun other => ?_⟩
    · rw [same]
      exact (sound.read other).later _
    · rw [same]
      exact sound.tunnels other
  | @outside change =>
    refine ⟨coherent_outside _ sound.coherent, vouched_outside sound _, heed, fun number => (sound.read number).later _,
      fun number => ?_⟩
    cases change <;> exact sound.tunnels number
  | @served number op k log called =>
    have learnt : ∀ other, knows place visits (Pool.answered (handle platform place)
        (reached platform place visits begin past) number op k log) other = _ := Pool.knows_answered called
    refine ⟨coherent_served sound, vouched_served sound called, heed, fun other => ?_, fun other => ?_⟩
    · change Read _ _ _ _ _ (knows place visits (Pool.answered (handle platform place) _ number op k log) other)
      rw [learnt]
      by_cases own : other = number
      · subst own
        rw [if_pos rfl]
        exact (read_learn (sound.read other) (Pool.heed_allowed sound.heed called)).later _
      · rw [if_neg own]
        exact (sound.read other).later _
    · change _ = (knows place visits (Pool.answered (handle platform place) _ number op k log) other).tunnel
      rw [learnt]
      have moved := tunnels_handle place op (sound.tunnels number) other
      by_cases own : other = number
      · rw [if_pos own] at moved ⊢
        exact moved
      · rw [if_neg own] at moved ⊢
        exact moved.trans (sound.tunnels other)

theorem sound_start (tables : Tables platform) (autoApprove : Place → List String) (network : Network) (now : Timestamp) :
    Sound place visits (start platform tables autoApprove network now) [] (start platform tables autoApprove network now) where
  coherent _ := Sharing.coherent_fresh
  vouched _ := allVouched_fresh platform.host
  heed number activity found := by cases found
  read number := by
    constructor
    · intro script found
      cases found
    · intro submission asked machine found
      cases found
    · intro submission asked found
      cases found
  tunnels _ := rfl

theorem sound_run (tables : Tables platform) (autoApprove : Place → List String) (network : Network) (now : Timestamp)
    (past : Turns platform Place) :
    Sound place visits (start platform tables autoApprove network now) past
      (reached platform place visits (start platform tables autoApprove network now) past) := by
  induction past using List.reverseRecOn with
  | nil => exact sound_start tables autoApprove network now
  | append_singleton past turn ih =>
    rw [reached, run_snoc]
    exact sound_step ih turn

/-! ## What an approval does -/

section
variable {target : Place} {name md5 : String} {scene : Scene platform Place}

/-- After a turn that approves an md5, approvals.json has it as the approved one. -/
theorem stands_of_approves {turn : Turn (Change platform Place)} (approves : Approves place scene target name md5 turn) :
    Stands (step platform place visits scene turn) target name md5 := by
  cases turn with
  | start => exact approves.elim
  | outside change =>
    cases change with
    | owner owned call =>
      cases call with
      | approve approved =>
        obtain ⟨rfl, rfl, effective, record, found, waits⟩ := approves
        -- the record that waits is the one that the manager approves
        have waiting : Waiting record.state := by
          obtain ⟨⟨other, held, waiting⟩, -⟩ := effective
          cases held.symm.trans found
          exact waiting
        rw [Stands, step, Pool.step]
        simp only [outside, Fleet.put, Function.update_self]
        exact granted_stands [] effective ⟨rfl, record, found, waiting, waits⟩
      | _ => exact approves.elim
    | _ => exact approves.elim
  | serve number =>
    obtain ⟨auto, endpoint, reaches, machine, content, metaYaml, k, log, tunnel, rfl, called, effective⟩ := approves
    -- the request arrives, whether or not its answer does
    have delivered : (handle platform place number (.send (.stageScript name content md5 metaYaml)) scene.shared).2.targets
        (place machine) = ((scene.shared.targets (place machine)).serve platform scene.shared.now
          (.stageScript name content md5 metaYaml)).2 := by
      simp only [handle, tunnel, deliver, if_pos reaches]
      exact Function.update_self _ _ _
    have staged := answer_staged platform (fun _ => (scene.shared.targets (place machine)).autoApprove) content md5
      metaYaml ((scene.shared.targets (place machine)).world scene.shared.now) endpoint
    rw [Stands, step, Pool.step_served _ _ called]
    change ∃ record, ((((handle platform place number (.send (.stageScript name content md5 metaYaml)) scene.shared).2.targets
      (place machine)).shared.disk.loaded platform.host).scripts.get? name) = some record ∧ _
    rw [delivered]
    change ∃ record, ((platform.host.run (answer platform _ _) _).2.disk.loaded platform.host).scripts.get? name =
      some record ∧ _
    rw [staged]
    exact granted_stands _ effective ⟨rfl, rfl, auto⟩

end

/-! ## What is launched -/

section
variable {turn : Turn (Change platform Place)} {target : Place} {launch : Launch} {scene : Scene platform Place}

theorem launched_outside (change : Change platform Place) (s : Fleet platform Place) (name : Place) :
    ((outside platform change s).targets name).launched = (s.targets name).launched := by
  have updated : ∀ changed target, target.launched = (s.targets changed).launched →
      ((s.put changed target).targets name).launched = (s.targets name).launched := by
    intro changed target same
    by_cases here : name = changed
    · subst here
      simpa only [Fleet.put, Function.update_self] using same
    · simp only [Fleet.put, Function.update_of_ne here]
  cases change with
  | clock | network | edit | others => rfl
  | owner | restart => exact updated _ _ rfl

theorem launches_sent (launched : launch ∈ launches place visits scene turn target) :
    ∃ number request k log machine, turn = .serve number ∧
      scene.activities number = some ⟨.call (.send request) k, log⟩ ∧
      scene.shared.tunnels number = some machine ∧ place machine = target ∧
      launches place visits scene turn target =
        ((scene.shared.targets target).serve platform scene.shared.now request).2.launched.drop
          (scene.shared.targets target).launched.length := by
  have moved := Pool.step_moved (fun number => (visits number).task platform) (handle platform place) (outside platform)
    scene turn
  unfold launches at launched ⊢
  change Pool.Moved _ _ _ _ _ (step platform place visits scene turn) at moved
  generalize step platform place visits scene turn = after at launched moved ⊢
  have unmoved : after.shared.targets target = scene.shared.targets target → False := by
    intro same
    rw [same, List.drop_length] at launched
    cases launched
  cases moved with
  | idle => exact (unmoved rfl).elim
  | started => exact (unmoved rfl).elim
  | @outside change =>
    change launch ∈ ((outside platform change scene.shared).targets target).launched.drop _ at launched
    rw [launched_outside, List.drop_length] at launched
    cases launched
  | @served number op k log called =>
    rcases targets_handle place number op scene.shared target with same | ⟨request, machine, rfl, tunnel, here, -, served⟩
    · exact (unmoved same).elim
    · refine ⟨number, request, k, log, machine, rfl, called, tunnel, here, ?_⟩
      rw [← served]
      rfl

theorem visit_eq {visit : Visit} {submission : Submission} (asked : visit.submission = some submission) :
    visit = .submit submission := by
  cases visit with
  | submit =>
    cases asked
    rfl
  | _ => cases asked

/-- The launch of a posted job is that of the version which approvals.json has as the approved one. -/
theorem approval_carried (sound : Sound place visits begin past (reached platform place visits begin past))
    {target : Place} {body : JobRequest} (carries : Carries platform.host
      (((reached platform place visits begin past).shared.targets target).world
        (reached platform place visits begin past).shared.now) body launch) :
    ∃ version, Approval place visits begin past target launch version := by
  have store := store_resynced (sound.coherent target)
    (acts_world ((reached platform place visits begin past).shared.targets target)
      (reached platform place visits begin past).shared.now)
  have named := carries.script
  -- the agent prepares the job on what it has just read, which is what the file has
  obtain ⟨-, ready, passed⟩ := carries.passes
  have approved := (prepared_ok passed).approved
  have intact := carries.intact
  rw [store] at approved intact
  obtain ⟨record, found, described⟩ := record_of_described approved
  rw [described] at approved intact
  have fits := (sound.vouched target).file body.scriptName record found
  obtain ⟨md5, stands⟩ := fits.stands approved
  obtain ⟨granted, version, once, same⟩ := fits.approved md5 stands
  subst same
  refine ⟨version, ?_, ?_, ?_, record, ?_, approved, stands⟩
  · rw [named]
    exact once
  · obtain ⟨before, -, -, held⟩ := once
    rw [intact version.md5 stands,
      (reached platform place visits begin before).shared.tables.scripts.hashed _ version held]
  · rw [named]
    exact granted
  · rw [named]
    exact found

/-- The turn that launches something is that in which the handler of a submission posts its job. -/
structure Posted (place : Machine → Place) (visits : Nat → Visit) (scene : Scene platform Place) (number : Nat)
    (target : Place) (launch : Launch) (submission : Submission) : Prop where
  submits : visits number = .submit submission
  admitted : submission.user.role = .admin ∨ (knows place visits scene number).bookmarked = true
  unposted : (knows place visits scene number).posted = false
  machine : ∃ machine, scene.shared.tunnels number = some machine ∧ place machine = target ∧
    (knows place visits scene number).machine = some machine
  job : ∃ body k log, scene.activities number = some ⟨.call (.send (.submitJob body)) k, log⟩ ∧
    body.scriptName = submission.scriptName ∧
    Carries platform.host ((scene.shared.targets target).world scene.shared.now) body launch
  alone : launches place visits scene (.serve number) target = [launch]

theorem launches_posted (sound : Sound place visits begin past (reached platform place visits begin past))
    (inLogs : ∀ number submission, visits number = .submit submission → InLogs platform.host submission.jobUuid)
    (launched : launch ∈ launches place visits (reached platform place visits begin past) turn target) :
    ∃ number submission, turn = .serve number ∧
      Posted place visits (reached platform place visits begin past) number target launch submission := by
  obtain ⟨number, request, k, log, machine, rfl, called, tunnel, here, sends⟩ := launches_sent launched
  rw [sends] at launched
  have allowed := Pool.heed_allowed sound.heed called
  have uuids : ∀ body, request = .submitJob body → InLogs platform.host body.jobUuid := by
    rintro body rfl
    obtain ⟨submission, asked, -, uuid, -⟩ := allowed
    rw [uuid]
    exact inLogs number submission (visit_eq asked)
  rcases serve_launched ((reached platform place visits begin past).shared.targets target)
      (reached platform place visits begin past).shared.now request uuids with kept | ⟨body, one, rfl, carries, more⟩
  · rw [kept, List.drop_length] at launched
    cases launched
  · -- the discipline says whose job it is, and that it was not posted before
    obtain ⟨submission, asked, unposted, -, script, admitted, -, same⟩ := allowed
    rw [more, List.drop_left, List.mem_singleton] at launched
    subst launched
    refine ⟨number, submission, rfl, visit_eq asked, admitted, unposted, ⟨machine, tunnel, here, ?_⟩,
      ⟨body, k, log, called, script, carries⟩, ?_⟩
    · rw [← same, ← sound.tunnels number, tunnel]
    · rw [sends, more, List.drop_left]

theorem posted_learn {known : Knowledge} (posted : known.posted = true) (op : Op) (reply : Except Failure (Reply op)) :
    (known.learn op reply).posted = true := by
  unfold Knowledge.learn
  split <;> first | exact posted | rfl

/-- A handler that has posted its job has done so for good. -/
theorem posted_run {scene : Scene platform Place} {number : Nat} (turns : Turns platform Place)
    (posted : (knows place visits scene number).posted = true) :
    (knows place visits (reached platform place visits scene turns) number).posted = true := by
  induction turns generalizing scene with
  | nil => exact posted
  | cons turn rest ih =>
    apply ih
    have lasting : ∀ (known : Knowledge) (op : Op) (reply : Except Failure (Reply op)), known.posted = true →
        (((disciplines visits) number).learn known op reply).posted = true :=
      fun _ op reply before => posted_learn before op reply
    exact Pool.knows_lasting lasting turn posted

theorem posted_after {scene : Scene platform Place} {number : Nat} {submission : Submission}
    (posts : Posted place visits scene number target launch submission) :
    (knows place visits (step platform place visits scene (.serve number)) number).posted = true := by
  obtain ⟨body, k, log, called, -⟩ := posts.job
  rw [step, Pool.step_served _ _ called]
  rw [knows, Pool.knows_answered called, if_pos rfl]
  rfl

end

/-! ## A script that is approved when it is staged -/

section
open Installation Agent.Installation

def deploy : Script :=
  { id := 1, name := "deploy", content := scriptOne, metaYaml := none, md5 := station.host.md5 scriptOne,
    persistent := false, updatedAt := "0", updatedBy := 1 }

def tables : Tables station :=
  { machines := Dict.empty.set 1 workstation, bookmarks := [(2, 1)], scripts := Library.empty.put deploy rfl,
    targetStates := Dict.empty, jobs := Dict.empty }

def fair : Network where
  connects := .ok ()
  closes := .ok ()
  wakes := .ok ()
  reaches := true
  returns := true
  trouble := .readTimeout
  stream := ⟨[], none⟩

def callers : Nat → Visit
  | 1 => .submit ResolvedVersion.webSubmission
  | _ => .stateBadge ⟨2, .user⟩ 1 "deploy"

theorem callers_inLogs (number : Nat) (submission : Submission) (submits : callers number = .submit submission) :
    InLogs station.host submission.jobUuid := by
  unfold callers at submits
  split at submits
  · cases submits
    exact ResolvedVersion.jobUuid_inLogs
  · cases submits

abbrev morning : Scene station Nat := start station tables (fun _ => ["deploy"]) fair "1"

def lossy : Turns station Nat :=
  .start 1 :: List.replicate 8 (.serve 1) ++ [.outside (.network { fair with returns := false })]

abbrev ran (turns : Turns station Nat) : Scene station Nat := reached station Machine.id callers morning turns

theorem lossy_launches : launches Machine.id callers (ran lossy) (.serve 1) 1 ≠ [] := by decide +kernel

/-- A submission launches one script at most, on one machine, whatever gets lost on the way. -/
theorem submissions_launch_once (platform : Platform) (place : Machine → Place) (visits : Nat → Visit)
    (tables : Tables platform) (autoApprove : Place → List String) (network : Network) (now : Timestamp)
    (inLogs : ∀ number submission, visits number = .submit submission → InLogs platform.host submission.jobUuid)
    (past rest : Turns platform Place) (number : Nat) (target other : Place) :
    let begin := start platform tables autoApprove network now
    launches place visits (reached platform place visits begin past) (.serve number) target ≠ [] →
      (launches place visits (reached platform place visits begin past) (.serve number) target).length = 1 ∧
      (launches place visits (reached platform place visits begin past) (.serve number) other ≠ [] → other = target) ∧
      launches place visits (reached platform place visits begin (past ++ .serve number :: rest)) (.serve number) other = [] := by
  intro begin some
  have sound : ∀ past, Sound place visits begin past (reached platform place visits begin past) := sound_run _ _ _ _
  have posts : ∀ past target, launches place visits (reached platform place visits begin past) (.serve number) target ≠ [] →
      ∃ launch submission, Posted place visits (reached platform place visits begin past) number target launch submission := by
    intro past target some
    obtain ⟨launch, launched⟩ := List.exists_mem_of_ne_nil _ some
    obtain ⟨_, submission, ⟨⟩, posted⟩ := launches_posted (sound past) inLogs launched
    exact ⟨launch, submission, posted⟩
  obtain ⟨launch, submission, posted⟩ := posts past target some
  refine ⟨?_, ?_, ?_⟩
  · rw [posted.alone]
    rfl
  · -- the handler has one tunnel, so both targets are where it leads
    intro also
    obtain ⟨_, _, elsewhere⟩ := posts past other also
    obtain ⟨machine, tunnel, here, -⟩ := posted.machine
    obtain ⟨_, same, there, -⟩ := elsewhere.machine
    cases tunnel.symm.trans same
    exact there.symm.trans here
  · -- a second launch would be posted by a handler that knows it has posted
    by_contra again
    obtain ⟨_, _, later⟩ := posts _ other again
    have already := posted_run rest (posted_after posted)
    rw [reached, run_append, run_cons] at later
    cases later.unposted.symm.trans already

/-- The handler hears nothing of the launch, and the job is not launched again. -/
theorem submissions_launch_once_lossy :
    (launches Machine.id callers (ran lossy) (.serve 1) 1).length = 1 ∧
      launches Machine.id callers (ran (lossy ++ .serve 1 :: List.replicate 5 (.serve 1))) (.serve 1) 1 = [] := by
  obtain ⟨one, -, none⟩ := submissions_launch_once station Machine.id callers tables (fun _ => ["deploy"]) fair "1"
    callers_inLogs lossy (List.replicate 5 (.serve 1)) 1 1 1 lossy_launches
  exact ⟨one, none⟩

end

end Fleets

end Csl.Server
