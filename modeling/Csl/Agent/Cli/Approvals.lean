import Csl.Agent.Approvals.Specs

/-! The owner's `csl-agent approvals` commands. Each runs in a process of its own, with a
manager constructed for it. -/

set_option autoImplicit false

namespace Csl.Agent
open Csl.Shared ApprovalsManager

def stateBadge : ApprovalState → String
  | .absent => "absent"
  | .pending => "PENDING (awaiting approval)"
  | .approved => "approved"
  | .updatePending => "UPDATE PENDING (new version staged)"
  | .rejected => "REJECTED"

variable (host : Host)

def cmdApprovalsShow (name : String) : Action String := do
  ApprovalsManager.init host
  let descriptor ← getState host name
  if ¬ (descriptor.state = .pending ∨ descriptor.state = .updatePending) then
    throw (.exit s!"'{name}' is {stateBadge descriptor.state} — nothing pending to show.")
  else do
    if !(← pathExists (.pending name)) then
      throw (.exit s!"Pending file not found: {host.display (.pending name)}")
    else do
      let text ← readText (.pending name)
      return s!"=== Pending content of '{name}' ===\n" ++ text

/-- The approved and the pending text whose unified diff `approvals diff` prints. -/
def cmdApprovalsDiff (name : String) : Action (String × String) := do
  ApprovalsManager.init host
  let descriptor ← getState host name
  if descriptor.state ≠ .updatePending then
    throw (.exit (s!"'{name}' is {stateBadge descriptor.state} — diff only available for" ++
      " update_pending scripts."))
  else do
    let approved ← readText (.scripts name)
    let pending ← readText (.pending name)
    return (approved, pending)

/-- An ApprovalError ends a command; any other exception goes through. -/
def approvalExit : Err → Action Unit
  | .approval message => throw (.exit s!"Error: {message}")
  | e => throw e

def cmdApprovalsApprove (name : String) : Action Unit := do
  ApprovalsManager.init host
  tryCatch (ApprovalsManager.approve host name) approvalExit

def cmdApprovalsReject (name : String) : Action Unit := do
  ApprovalsManager.init host
  tryCatch (ApprovalsManager.reject host name) approvalExit

def cmdApprovalsClear (name : String) : Action Unit := do
  ApprovalsManager.init host
  tryCatch (ApprovalsManager.clear host name) approvalExit

/-! ## Run to their end -/

def World.opened (host : Host) (w : World) : World :=
  { w with memory := ⟨w.disk.loaded host, w.disk.currentSig host⟩ }

section
variable {host} (name : String) (w : World)

theorem opened_synced : (w.opened host).Synced host := ⟨rfl, rfl⟩

theorem run_init_opened : host.run (ApprovalsManager.init host) w = (.ok (), w.opened host) :=
  ApprovalsManager.run_init w

theorem run_getState_opened :
    host.run (getState host name) (w.opened host) =
      (.ok (describe (w.disk.loaded host) name), w.opened host) := by
  rw [run_getState, (opened_synced w).resynced_eq]
  rfl

theorem run_cmdApprovalsShow :
    host.run (cmdApprovalsShow host name) w =
      (if Waiting ((w.disk.loaded host).stateOf name) then
        match w.disk.text? host (.pending name) with
        | none => .error (.exit s!"Pending file not found: {host.display (.pending name)}")
        | some text => .ok (s!"=== Pending content of '{name}' ===\n" ++ Newlines.universal text)
      else .error (.exit
        s!"'{name}' is {stateBadge ((w.disk.loaded host).stateOf name)} — nothing pending to show."),
        w.opened host) := by
  simp only [cmdApprovalsShow, Proc.run_bind, run_init_opened, Proc.follow_ok,
    run_getState_opened, describe_state, Proc.run_ite]
  by_cases waiting : Waiting ((w.disk.loaded host).stateOf name)
  · rw [if_neg (show ¬ ¬ (_ = ApprovalState.pending ∨ _) from not_not.mpr waiting), if_pos waiting]
    cases found : w.disk.read host (.pending name) with
    | none => simp [World.opened, found, Disk.text?]
    | some file => simp [World.opened, found, Disk.text?, run_readText]
  · rw [if_pos (show ¬ (_ = ApprovalState.pending ∨ _) from waiting), if_neg waiting]
    rfl

theorem run_cmdApprovalsDiff :
    host.run (cmdApprovalsDiff host name) w =
      (if (w.disk.loaded host).stateOf name = .updatePending then
        match w.disk.text? host (.scripts name), w.disk.text? host (.pending name) with
        | none, _ => .error (.fileNotFound (.scripts name))
        | some _, none => .error (.fileNotFound (.pending name))
        | some approved, some pending =>
          .ok (Newlines.universal approved, Newlines.universal pending)
      else .error (.exit
        (s!"'{name}' is {stateBadge ((w.disk.loaded host).stateOf name)} — diff only available for" ++
          " update_pending scripts.")), w.opened host) := by
  simp only [cmdApprovalsDiff, Proc.run_bind, run_init_opened, Proc.follow_ok,
    run_getState_opened, describe_state, Proc.run_ite]
  by_cases update : (w.disk.loaded host).stateOf name = .updatePending
  · rw [if_neg (not_not.mpr update), if_pos update]
    cases script : w.disk.read host (.scripts name) with
    | none => simp [World.opened, script, Disk.text?, run_readText]
    | some approved =>
      cases pending : w.disk.read host (.pending name) with
      | none => simp [World.opened, script, pending, Disk.text?, run_readText]
      | some file => simp [World.opened, script, pending, Disk.text?, run_readText]
  · rw [if_pos update, if_neg update]
    rfl

/-- The commands that change approvals run their mutation on a manager just constructed: they
leave the world it leaves, and succeed when it does. -/
theorem run_approvalExit (mutation : Action Unit) :
    let ends := host.run (do
      ApprovalsManager.init host
      tryCatch mutation approvalExit) w
    let called := host.run mutation (w.opened host)
    ends.2 = called.2 ∧ (ends.1 = .ok () ↔ called.1 = .ok ()) := by
  have called : Proc.run (handle host) mutation (w.opened host) = host.run mutation (w.opened host) :=
    rfl
  simp only [Proc.run_bind, run_init_opened, Proc.follow_ok, Proc.run_tryCatch]
  rw [called]
  generalize host.run mutation (w.opened host) = called
  rcases called with ⟨e | result, after⟩
  · rw [Proc.recoverWith_error]
    cases e <;> exact ⟨rfl, by constructor <;> intro failed <;> cases failed⟩
  · exact ⟨rfl, Iff.rfl⟩

end

end Csl.Agent
