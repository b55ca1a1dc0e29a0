import Tangerine.Proof.Governance.Registry

/-! The three DKG flag maps and their counters, set by `addDKG*` and cleared by `clearDKG`. -/

namespace Tangerine.Proof.DKGFlags

open Tangerine.Common Tangerine.Core Tangerine.Core.Vm Tangerine.Library
  Tangerine.Proof.Accounts Tangerine.Proof.Registry Tangerine.Proof.OracleFrames Function

variable {ext : Externals} {ctx : CallContext}

/-- The message is checked against its proposer; the flag goes to the caller, whoever it is. -/
theorem addDKGProgress_eq_ok {flag : DKGFlag} {message : Bytes} {s s' : GovernanceState} :
    GovernanceContract.addDKGProgress ext ctx flag message s = .ok s' ↔
      ∃ progress, ext.decodeDKGProgress flag message = some progress ∧
        progress.round = ctx.round + 1 ∧ progress.reset = s.dkgResetCount progress.round ∧
        progress.proposerID ∈ ext.notarySet progress.round ∧
        ext.verifyDKGProgressSignature flag message = true ∧
        (if s.dkgFlag flag ctx.caller then s
          else (s.putDKGFlag flag ctx.caller true).incDKGFlagsCount flag) = s' := by
  unfold GovernanceContract.addDKGProgress
  split
  · next undecoded => simp [undecoded]
  · next progress decoded =>
      simp only [except_ite_error_eq_ok, decoded, Option.some.injEq, exists_eq_left', not_not,
        GovernanceContract.inNotarySet, decide_eq_false_iff_not, Bool.not_eq_eq_eq_not,
        Bool.not_true, Bool.not_eq_false]
      -- the source's `if !DKGMPKReady(caller)` against the spec's `if flagged`
      cases s.dkgFlag flag ctx.caller <;> simp

theorem dkgFlag_addDKGProgress_caller {flag : DKGFlag} {message : Bytes} {s s' : GovernanceState}
    (added : GovernanceContract.addDKGProgress ext ctx flag message s = .ok s') :
    s'.dkgFlag flag ctx.caller = true := by
  obtain ⟨progress, -, -, -, -, -, rfl⟩ := addDKGProgress_eq_ok.mp added
  split
  · next flagged => exact flagged
  · simp [GovernanceState.dkgFlag_putDKGFlag]

/-- `clearDKG` clears the flags of the stored round's notary set only, and zeroes the counters. -/
theorem clearDKG_flags {s s' : GovernanceState}
    (cleared : GovernanceContract.clearDKG ext s = .ok s') :
    (∀ flag addr, s'.dkgFlag flag addr =
      if addr ∈ (ext.notarySet s.dkgRound).map idToAddress then false else s.dkgFlag flag addr) ∧
    ∀ flag, s'.dkgFlagsCount flag = 0 := by
  simp only [GovernanceContract.clearDKG, except_bind_eq_ok, orPanic_eq_ok] at cleared
  obtain ⟨offsetsCleared, offsets, proposedCleared, proposed, done⟩ := cleared
  -- clearing the stored keys and complaints leaves the flags
  have offsetsKept : offsetsCleared.dkgFlags = s.dkgFlags :=
    clearDKGMasterPublicKeyOffset_preserves GovernanceState.dkgFlags (fun _ _ _ => rfl) offsets
  have flagsKept : proposedCleared.dkgFlags = s.dkgFlags := by
    rw [clearDKGComplaintProposed_preserves GovernanceState.dkgFlags (fun _ _ _ => rfl) proposed]
    exact offsetsKept
  rw [← Except.ok.inj done]
  constructor
  · intro flag addr
    have kept : proposedCleared.clearDKGComplaints.dkgFlag flag addr = s.dkgFlag flag addr := by
      simp only [GovernanceState.dkgFlag, GovernanceState.clearDKGComplaints, flagsKept]
    -- each flag map is cleared once, by its own `Clear`
    cases flag <;> simp [GovernanceState.clearDKGMPKReadys, GovernanceState.clearDKGFinalizeds,
      GovernanceState.clearDKGSuccesses, GovernanceState.resetDKGMPKReadysCount,
      GovernanceState.resetDKGFinalizedsCount, GovernanceState.resetDKGSuccessesCount,
      GovernanceState.dkgFlag_clearDKGFlags, kept]
  · intro flag
    cases flag <;> simp [GovernanceState.resetDKGMPKReadysCount,
      GovernanceState.resetDKGFinalizedsCount, GovernanceState.resetDKGSuccessesCount,
      GovernanceState.clearDKGMPKReadys, GovernanceState.clearDKGFinalizeds,
      GovernanceState.clearDKGSuccesses, GovernanceState.dkgFlagsCount_resetDKGFlagsCount]

theorem dkgFlags_fineFailStopNode (s : GovernanceState) (id : NodeID) :
    (GovernanceContract.fineFailStopNode s id).dkgFlags = s.dkgFlags := by
  unfold GovernanceContract.fineFailStopNode
  dsimp only
  split <;> rfl

/-- Fining the fail-stop nodes leaves every DKG flag. -/
theorem fineFailStopDKG_dkgFlags {threshold : Nat} {s s' : GovernanceState}
    (fined : GovernanceContract.fineFailStopDKG ext threshold s = .ok s') :
    s'.dkgFlags = s.dkgFlags := by
  obtain ⟨nodes, -, done⟩ := except_bind_eq_ok.mp fined
  rw [← Except.ok.inj done]
  exact foldl_preserves GovernanceState.dkgFlags dkgFlags_fineFailStopNode nodes s

/-- The method that sets each flag. -/
def progressCall : DKGFlag → Bytes → GovernanceCall
  | .mpkReady, message => .addDKGMPKReady message
  | .finalized, message => .addDKGFinalize message
  | .success, message => .addDKGSuccess message

/-- Each of the three methods, when it succeeds, leaves its caller flagged. -/
theorem dkgFlag_run_progressCall {flag : DKGFlag} {message : Bytes} {db db' : StateDB}
    (ran : GovernanceContract.run ext ctx (progressCall flag message) db = .ok db') :
    db'.governance.dkgFlag flag ctx.caller = true := by
  cases flag with
  | mpkReady | success =>
    obtain ⟨s, added, ran⟩ := except_bind_eq_ok.mp ran
    obtain ⟨-, rfl⟩ := useGas_eq_ok.mp ran
    exact dkgFlag_addDKGProgress_caller added
  | finalized =>
    obtain ⟨s, added, ran⟩ := except_bind_eq_ok.mp ran
    dsimp only at ran
    -- the finalize that reaches the threshold fines the fail-stop nodes first
    split at ran
    · obtain ⟨fined, finedOk, ran⟩ := except_bind_eq_ok.mp ran
      obtain ⟨-, rfl⟩ := useGas_eq_ok.mp ran
      simp only [StateDB.setGovernance_governance, GovernanceState.dkgFlag,
        fineFailStopDKG_dkgFlags finedOk]
      exact dkgFlag_addDKGProgress_caller added
    · obtain ⟨-, rfl⟩ := useGas_eq_ok.mp ran
      exact dkgFlag_addDKGProgress_caller added

/-- A flag an outsider of the notary set gets from `addDKG*` survives `clearDKG`. -/
theorem outsider_flag_survives_clearDKG {flag : DKGFlag} {message : Bytes}
    {db flagged : StateDB} {cleared : GovernanceState}
    (added : GovernanceContract.run ext ctx (progressCall flag message) db = .ok flagged)
    (outside : ctx.caller ∉ (ext.notarySet flagged.governance.dkgRound).map idToAddress)
    (clearedOk : GovernanceContract.clearDKG ext flagged.governance = .ok cleared) :
    cleared.dkgFlag flag ctx.caller = true ∧ cleared.dkgFlagsCount flag = 0 := by
  obtain ⟨clearedFlags, clearedCounts⟩ := clearDKG_flags clearedOk
  rw [clearedFlags, if_neg outside]
  exact ⟨dkgFlag_run_progressCall added, clearedCounts flag⟩

/-- A node of the notary set of every round. -/
def notaryNode : NodeID := ⟨0x5#256⟩

/-- Externals under which every DKG progress message is one of `notaryNode` in round one. -/
def progressExternals : Externals :=
  { keyExternals nodeKey with
    decodeDKGProgress := fun _ _ => some ⟨notaryNode, 1, 0⟩
    verifyDKGProgressSignature := fun _ _ => true
    notarySet := fun _ => [notaryNode] }

/-- `nodeOwner`, outside the notary set, relays such a message in round zero. -/
def relayContext : CallContext := ⟨nodeOwner, 0, GovernanceActionGasCost, 0, 1, 1⟩

/-- The state after `nodeOwner` relays an `MPKReady` at `oneStakerGenesis`. -/
def relayedReady : StateDB :=
  match GovernanceContract.run progressExternals relayContext (.addDKGMPKReady []) oneStakerGenesis with
  | .ok db => db
  | .error _ => oneStakerGenesis

/-- The storage `clearDKG` leaves after the relay. -/
def clearedAfterRelay : GovernanceState :=
  match GovernanceContract.clearDKG progressExternals relayedReady.governance with
  | .ok s => s
  | .error _ => relayedReady.governance

theorem outsider_flag_survives_clearDKG_relay :
    GovernanceContract.run progressExternals relayContext (progressCall .mpkReady [])
        oneStakerGenesis = .ok relayedReady ∧
      relayContext.caller ∉ (progressExternals.notarySet relayedReady.governance.dkgRound).map
        idToAddress ∧
      GovernanceContract.clearDKG progressExternals relayedReady.governance = .ok clearedAfterRelay ∧
      (clearedAfterRelay.dkgFlag .mpkReady relayContext.caller = true ∧
        clearedAfterRelay.dkgFlagsCount .mpkReady = 0) :=
  have added : GovernanceContract.run progressExternals relayContext (progressCall .mpkReady [])
      oneStakerGenesis = .ok relayedReady := rfl
  have outside : relayContext.caller ∉
      (progressExternals.notarySet relayedReady.governance.dkgRound).map idToAddress := by decide
  have clearedOk : GovernanceContract.clearDKG progressExternals relayedReady.governance =
      .ok clearedAfterRelay := rfl
  ⟨added, outside, clearedOk, outsider_flag_survives_clearDKG added outside clearedOk⟩

/-- A relayed `MPKReady` flag of a non-member outlives `clearDKG`. -/
theorem relayed_flag_outlives_clearDKG :
    (∀ flag addr, oneStakerGenesis.governance.dkgFlag flag addr = false) ∧
      (∀ flag, oneStakerGenesis.governance.dkgFlagsCount flag = 0) ∧
      GovernanceContract.run progressExternals relayContext (.addDKGMPKReady [])
        oneStakerGenesis = .ok relayedReady ∧
      relayedReady.governance.dkgMPKReady nodeOwner = true ∧
      nodeOwner ∉ (progressExternals.notarySet relayedReady.governance.dkgRound).map idToAddress ∧
      GovernanceContract.clearDKG progressExternals relayedReady.governance = .ok clearedAfterRelay ∧
      clearedAfterRelay.dkgMPKReady nodeOwner = true ∧ clearedAfterRelay.dkgMPKReadysCount = 0 :=
  ⟨fun _ _ => rfl, fun _ => rfl, rfl, by decide, by decide, rfl, by decide, by decide⟩

end Tangerine.Proof.DKGFlags
