import KeyRegistry.Proofs.Pipeline.Patience
import KeyRegistry.Settings.Basic

/-!
# Transactions under settings

Settings without a fault have a positive interval between the questions for a
receipt.  A run with such settings asks a bounded number of times for anything,
whatever the node answers, and the clock or an answer ends its wait.
-/

namespace KeyRegistry
namespace PipelineSettings

/-- How long a receipt is waited for, in milliseconds. -/
def receiptTimeoutMs (s : PipelineSettings) : Nat :=
  s.receiptTimeoutSecs.toNat * 1000

theorem receiptTimeout_nanos (s : PipelineSettings) :
    s.toConfig.receiptTimeout.nanos = s.receiptTimeoutMs * 1_000_000 := by
  have hsecs := s.receiptTimeoutSecs.toNat_lt
  change min (s.receiptTimeoutSecs.toNat * 1_000_000_000) Duration.longest = _
  unfold receiptTimeoutMs Duration.longest
  omega

theorem receiptPollInterval_nanos (s : PipelineSettings) :
    s.toConfig.receiptPollInterval.nanos = s.receiptPollMs.toNat * 1_000_000 := by
  have hms := s.receiptPollMs.toNat_lt
  change min (s.receiptPollMs.toNat * 1_000_000) Duration.longest = _
  unfold Duration.longest
  omega

theorem pollLimit_toConfig (s : PipelineSettings) (hpoll : 0 < s.receiptPollMs.toNat) :
    s.toConfig.pollLimit = s.receiptTimeoutMs ⌈/⌉ s.receiptPollMs.toNat :=
  Pipeline.pollLimit_of_millis s.receiptTimeout_nanos s.receiptPollInterval_nanos hpoll

end PipelineSettings
namespace Settings

theorem poll_pos_of_faultless {settings : Settings} (h : settings.fault? = none) :
    0 < settings.pipeline.receiptPollMs.toNat := by
  unfold fault? at h
  iterate 4
    split at h
    · cases h
  rename_i hpoll
  apply Nat.pos_of_ne_zero
  intro hzero
  exact hpoll (UInt64.toNat.inj hzero)

end Settings
namespace Pipeline

open Program

/-- A run with settings that have no fault asks for one estimate, and for as many prices, sends and
receipts as the retries and the waiting time allow.  It counts its sends, and it would go the same
way if more rounds of its wait were allowed. -/
theorem accepted_settings_terminate {settings : Settings} (call : Call) {σ : Type} {w : World σ}
    {time : σ -> Nat} (s : σ) (haccepted : settings.fault? = none)
    (hretries : settings.pipeline.maxRetries.toNat < UInt32.size - 1) (hw : Timely w time) :
    let retries := settings.pipeline.maxRetries.toNat
    let rounds := settings.pipeline.receiptTimeoutMs ⌈/⌉ settings.pipeline.receiptPollMs.toNat
    let start := new call settings.pipeline.toConfig
    let history := (run start).trace w s
    let ended := ((run start).run w s).1.2
    history.countP isEstimate ≤ 1 ∧
      history.countP isQuote ≤ (retries + 1) * (retries + 1) ∧
      history.countP isAttempt ≤ retries + 1 ∧
      history.countP isPoll ≤ rounds + 1 ∧
      ended.attempts = history.countP isAttempt ∧ ended.attempts < UInt32.size ∧
      forall patience, rounds ≤ patience ->
        ((Move.runWithin patience).step start).trace w s = history ∧
        ((Move.runWithin patience).step start).run w s = (run start).run w s := by
  intro retries rounds start history ended
  have hpoll := Settings.poll_pos_of_faultless haccepted
  have hnanos : 0 < settings.pipeline.toConfig.receiptPollInterval.nanos :=
    settings.pipeline.receiptPollInterval_nanos ▸ Nat.mul_pos hpoll (by decide)
  have hlimit : settings.pipeline.toConfig.pollLimit = rounds :=
    settings.pipeline.pollLimit_toConfig hpoll
  have htally : Tally start ended 1 ((retries + 1) * (retries + 1)) (retries + 1) (rounds + 1)
      history := hlimit ▸ tally_of_run call settings.pipeline.toConfig w s
  have hattempts : ended.attempts = history.countP isAttempt :=
    attempts_of_run call settings.pipeline.toConfig w s
  refine ⟨htally.estimates_le, htally.quotes_le, htally.attempts_le, htally.polls_le, hattempts,
    ?_, ?_⟩
  · have hsends := htally.attempts_le
    omega
  · intro patience hpatience
    rw [← hlimit] at hpatience
    have hagrees : Agrees w s (Move.run start) (Move.runWithin patience start) :=
      agrees_runWithin hw hnanos hpatience
    rcases hagrees with ⟨htrace, hrun⟩
    exact ⟨htrace.symm, hrun.symm⟩

/-- A node that takes every transaction and includes none, with a clock that only pauses advance. -/
def idling : World Nat where
  answer action now :=
    (Answers.reply ⟨.ok 1, .ok Hash.zero, .ok none⟩ now action,
      match action with
      | .sleep d => now + d.nanos
      | _ => now)

theorem timely_idling : Timely idling id := by
  constructor
  · intro now
    rfl
  · intro action now
    cases action with
    | sleep d => exact Nat.le_add_right now d.nanos
    | _ => exact Nat.le_refl now
  · intro d now
    exact Nat.le_refl _

/-- Settings with which a receipt is waited for two intervals and a half. -/
def hasty : Settings :=
  { Settings.default "/home" with
    pipeline := { PipelineSettings.default with receiptTimeoutSecs := 1, receiptPollMs := 400 } }

/-- A receipt that never comes is asked for as often as the bound says. -/
theorem accepted_settings_terminate_idling :
    hasty.fault? = none ∧ Timely idling id ∧
      hasty.pipeline.receiptTimeoutMs ⌈/⌉ hasty.pipeline.receiptPollMs.toNat = 3 ∧
      ((run (new creation hasty.pipeline.toConfig)).trace idling 0).countP isPoll = 4 ∧
      ((run (new creation hasty.pipeline.toConfig)).run idling 0).1.2.attempts =
        ((run (new creation hasty.pipeline.toConfig)).trace idling 0).countP isAttempt ∧
      forall patience, 3 ≤ patience ->
        ((Move.runWithin patience).step (new creation hasty.pipeline.toConfig)).trace idling 0 =
          (run (new creation hasty.pipeline.toConfig)).trace idling 0 := by
  have haccepted : hasty.fault? = none := by decide
  have hrun := accepted_settings_terminate creation 0 haccepted (by decide) timely_idling
  rcases hrun with ⟨_, _, _, _, hattempts, _, hpatience⟩
  refine ⟨haccepted, timely_idling, by decide, by decide +kernel, hattempts, ?_⟩
  intro patience hle
  exact (hpatience patience hle).1

end Pipeline
end KeyRegistry
