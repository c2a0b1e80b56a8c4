import Igra.Runs
import Igra.Rust.Outcome
import Mathlib.Algebra.GroupWithZero.Nat
import Mathlib.Logic.Function.Basic

/-!
# The gas price service

Callers share a cached base fee.  A caller that finds it too old takes a lock,
looks again, and only then asks the execution layer.  A caller can be dropped
wherever it waits, and time passes between any two steps.
-/

open Runs Rust

namespace RpcProvider

abbrev U256 := BitVec 256

structure GasConfig where
  minProtocolFeePerGasGwei : UInt64

/-- The errors of `get_effective_base_fee`. -/
inductive BaseFeeError where
  | elCallError (reason : String)
  | internal (reason : String)
deriving DecidableEq

abbrev BaseFeeResult := Outcome BaseFeeError U256

section Fees

/-- `GWEI_TO_WEI`. -/
def gweiToWei : U256 := 1000000000

/-- `checked_mul`. -/
def checkedMul256 (left right : U256) : Option U256 :=
  if left.toNat * right.toNat < 2 ^ 256 then some (left * right) else none

/-- `min_floor_wei`. -/
def GasConfig.minFloorWei (config : GasConfig) : BaseFeeResult :=
  Outcome.ofOption
    (.internal "min_protocol_fee_per_gas_gwei multiplication overflow")
    (checkedMul256 (BitVec.ofNat 256 config.minProtocolFeePerGasGwei.toNat)
      gweiToWei)

/-- How the request for the latest block ends. -/
inductive BlockReply where
  | failed (reason : String)
  | unparsable (reason : String)
  | block (baseFeePerGas : Option U256)

def fetchNetworkBaseFee : BlockReply → BaseFeeResult
  | .failed reason => Outcome.err (.elCallError reason)
  | .unparsable reason =>
      Outcome.err (.internal ("Failed to parse block response: " ++ reason))
  | .block baseFeePerGas =>
      Outcome.ofOption
        (.internal "Block missing baseFeePerGas field - EIP-1559 not active")
        baseFeePerGas

/-- The fee that a fetch leads to. -/
def effectiveBaseFee (config : GasConfig) (reply : BlockReply) :
    BaseFeeResult := do
  let networkBaseFee ← fetchNetworkBaseFee reply
  let minFloorWei ← config.minFloorWei
  pure (if networkBaseFee ≤ minFloorWei then minFloorWei else networkBaseFee)

/-- The configured floor, in wei. -/
def GasConfig.floor (config : GasConfig) : Nat :=
  config.minProtocolFeePerGasGwei.toNat * 1000000000

/-- The floor never overflows. -/
theorem exists_minFloorWei (config : GasConfig) :
    ∃ floor, config.minFloorWei = .ok floor ∧
      floor.toNat = config.floor := by
  have bound := config.minProtocolFeePerGasGwei.toNat_lt
  have gwei : (BitVec.ofNat 256
      config.minProtocolFeePerGasGwei.toNat).toNat =
        config.minProtocolFeePerGasGwei.toNat := by
    rw [BitVec.toNat_ofNat]
    exact Nat.mod_eq_of_lt (by omega)
  have wei : gweiToWei.toNat = 1000000000 := by
    decide
  have fits : config.minProtocolFeePerGasGwei.toNat * 1000000000 <
      2 ^ 256 := by
    omega
  refine ⟨BitVec.ofNat 256 config.minProtocolFeePerGasGwei.toNat * gweiToWei,
    ?_, ?_⟩
  · rw [GasConfig.minFloorWei, checkedMul256, gwei, wei, if_pos fits,
      Outcome.ofOption]
  · rw [BitVec.toNat_mul, gwei, wei, Nat.mod_eq_of_lt fits, GasConfig.floor]

theorem floor_le_of_effectiveBaseFee {config : GasConfig}
    {reply : BlockReply} {fee : U256}
    (effective : effectiveBaseFee config reply = .ok fee) :
    config.floor ≤ fee.toNat := by
  obtain ⟨floor, computed, value⟩ := exists_minFloorWei config
  simp only [effectiveBaseFee, computed, Outcome.bind_eq_ok,
    Outcome.ok_bind, Outcome.pure_eq_ok] at effective
  obtain ⟨networkBaseFee, -, rfl⟩ := effective
  rw [← value]
  split
  · exact Nat.le_refl _
  · rename_i above
    exact Nat.le_of_lt (BitVec.not_le.mp above)

end Fees

section Service

structure CachedFee where
  fee : U256
  /-- nanoseconds of the monotonic clock -/
  fetchedAt : Nat
deriving DecidableEq

/-- `IGRA_BLOCK_TIME`, the lifetime of the cached fee, in nanoseconds. -/
def igraBlockTime : Nat := 1000000000

/-- Where a caller of `get_effective_base_fee` is. -/
inductive CallerStage where
  | outside
  | atFastPath
  | atRefreshLock
  | atDoubleCheck
  | atFetch
  | fetching
  | atStore (effectiveBaseFee : U256)
  | done (result : BaseFeeResult)
deriving DecidableEq

structure GasPriceService (Caller : Type) where
  now : Nat
  cachedFee : Option CachedFee
  /-- who holds the lock -/
  refreshInProgress : Option Caller
  stage : Caller → CallerStage

inductive GasPriceAction (Caller : Type) where
  | call (caller : Caller)
  | fastPath (caller : Caller)
  | lockRefresh (caller : Caller)
  | doubleCheck (caller : Caller)
  | fetch (caller : Caller)
  | answer (caller : Caller) (reply : BlockReply)
  | store (caller : Caller)
  | drop (caller : Caller)
  | elapse (nanoseconds : Nat)

namespace GasPriceService

variable {Caller : Type}

def new (now : Nat) : GasPriceService Caller where
  now := now
  cachedFee := none
  refreshInProgress := none
  stage := fun _ => .outside

/-- The cached fee if `fetched_at.elapsed()` is below the lifetime. -/
def freshFee (service : GasPriceService Caller) : Option U256 :=
  match service.cachedFee with
  | some cached =>
      if service.now - cached.fetchedAt < igraBlockTime then some cached.fee
      else none
  | none => none

/-- What a caller relies on where it is. -/
def StageSound (config : GasConfig) (service : GasPriceService Caller)
    (caller : Caller) : CallerStage → Prop
  | .atDoubleCheck => service.refreshInProgress = some caller
  | .atFetch =>
      service.refreshInProgress = some caller ∧ service.freshFee = none
  | .fetching => service.refreshInProgress = some caller
  | .atStore fee =>
      service.refreshInProgress = some caller ∧ config.floor ≤ fee.toNat
  | .done (.ok fee) => config.floor ≤ fee.toNat
  | _ => True

structure Sound (config : GasConfig) (service : GasPriceService Caller) :
    Prop where
  stages : ∀ caller, service.StageSound config caller (service.stage caller)
  cached : ∀ cached, service.cachedFee = some cached →
    config.floor ≤ cached.fee.toNat

variable {config : GasConfig} {service : GasPriceService Caller}

/-- A caller keeps what it relies on while it keeps the lock and the cache
stays stale. -/
theorem StageSound.mono {next : GasPriceService Caller} {caller : Caller}
    {stage : CallerStage} (sound : service.StageSound config caller stage)
    (locked : service.refreshInProgress = some caller →
      next.refreshInProgress = some caller)
    (stale : service.freshFee = none → next.freshFee = none) :
    next.StageSound config caller stage := by
  cases stage with
  | atDoubleCheck => exact locked sound
  | atFetch => exact ⟨locked sound.1, stale sound.2⟩
  | fetching => exact locked sound
  | atStore fee => exact ⟨locked sound.1, sound.2⟩
  | done result => cases result <;> exact sound
  | outside => trivial
  | atFastPath => trivial
  | atRefreshLock => trivial

theorem StageSound.of_unlocked {next : GasPriceService Caller}
    {caller : Caller} {stage : CallerStage}
    (sound : service.StageSound config caller stage)
    (unlocked : service.refreshInProgress ≠ some caller) :
    next.StageSound config caller stage := by
  cases stage with
  | atDoubleCheck => exact absurd sound unlocked
  | atFetch => exact absurd sound.1 unlocked
  | fetching => exact absurd sound unlocked
  | atStore fee => exact absurd sound.1 unlocked
  | done result => cases result <;> exact sound
  | outside => trivial
  | atFastPath => trivial
  | atRefreshLock => trivial

private theorem freshFee_elapse (stale : service.freshFee = none)
    (nanoseconds : Nat) :
    { service with now := service.now + nanoseconds }.freshFee = none := by
  unfold freshFee at stale ⊢
  cases cache : service.cachedFee with
  | none => rfl
  | some cached =>
      simp only [cache, ite_eq_right_iff, reduceCtorEq, imp_false] at stale
      have later : ¬service.now + nanoseconds - cached.fetchedAt <
          igraBlockTime := by
        omega
      exact if_neg later

private theorem not_young_of_freshFee_eq_none
    (stale : service.freshFee = none) :
    ∀ cached, service.cachedFee = some cached →
      igraBlockTime ≤ service.now - cached.fetchedAt := by
  intro cached cache
  simp only [freshFee, cache, ite_eq_right_iff, reduceCtorEq, imp_false,
    Nat.not_lt] at stale
  exact stale

namespace Sound

theorem new (now : Nat) : Sound config (.new now : GasPriceService Caller) :=
  ⟨fun _ => trivial, fun _ cache => by cases cache⟩

theorem floor_le_freshFee (sound : Sound config service) {fee : U256}
    (fresh : service.freshFee = some fee) : config.floor ≤ fee.toNat := by
  unfold freshFee at fresh
  cases cache : service.cachedFee with
  | none => simp [cache] at fresh
  | some cached =>
      simp only [cache, Option.ite_none_right_eq_some,
        Option.some.injEq] at fresh
      rw [← fresh.2]
      exact sound.cached cached cache

end Sound

variable [DecidableEq Caller]

def moveTo (service : GasPriceService Caller) (caller : Caller)
    (stage : CallerStage) : GasPriceService Caller :=
  { service with stage := Function.update service.stage caller stage }

/-- The end of a call drops the guard of the lock. -/
def leave (service : GasPriceService Caller) (caller : Caller)
    (stage : CallerStage) : GasPriceService Caller :=
  { service.moveTo caller stage with
    refreshInProgress :=
      if service.refreshInProgress = some caller then none
      else service.refreshInProgress }

/-- The steps of `get_effective_base_fee`, from one point where a caller can
be interrupted to the next. -/
def perform (config : GasConfig) (service : GasPriceService Caller) :
    GasPriceAction Caller → Option (GasPriceService Caller)
  | .call caller =>
      match service.stage caller with
      | .outside => some (service.moveTo caller .atFastPath)
      | .done _ => some (service.moveTo caller .atFastPath)
      | _ => none
  | .fastPath caller =>
      match service.stage caller with
      | .atFastPath =>
          match service.freshFee with
          | some fee => some (service.moveTo caller (.done (.ok fee)))
          | none => some (service.moveTo caller .atRefreshLock)
      | _ => none
  | .lockRefresh caller =>
      match service.stage caller with
      | .atRefreshLock =>
          if service.refreshInProgress = none then
            some { service.moveTo caller .atDoubleCheck with
              refreshInProgress := some caller }
          else none
      | _ => none
  | .doubleCheck caller =>
      match service.stage caller with
      | .atDoubleCheck =>
          match service.freshFee with
          | some fee => some (service.leave caller (.done (.ok fee)))
          | none => some (service.moveTo caller .atFetch)
      | _ => none
  | .fetch caller =>
      match service.stage caller with
      | .atFetch => some (service.moveTo caller .fetching)
      | _ => none
  | .answer caller reply =>
      match service.stage caller with
      | .fetching =>
          match effectiveBaseFee config reply with
          | .ok fee => some (service.moveTo caller (.atStore fee))
          | .error fault => some (service.leave caller (.done (.error fault)))
      | _ => none
  | .store caller =>
      match service.stage caller with
      | .atStore fee =>
          some { service.leave caller (.done (.ok fee)) with
            cachedFee := some ⟨fee, service.now⟩ }
      | _ => none
  | .drop caller => some (service.leave caller .outside)
  | .elapse nanoseconds =>
      some { service with now := service.now + nanoseconds }

/-- A run of the service under any order of the callers' steps. -/
def Step (config : GasConfig) (service : GasPriceService Caller)
    (action : GasPriceAction Caller) (next : GasPriceService Caller) : Prop :=
  service.perform config action = some next

namespace Sound

/-- One caller moves; the others keep what they rely on. -/
theorem move {next : GasPriceService Caller} {caller : Caller}
    {stage : CallerStage} (sound : Sound config service)
    (moved : next.stage = Function.update service.stage caller stage)
    (own : next.StageSound config caller stage)
    (others : ∀ other, other ≠ caller →
      service.StageSound config other (service.stage other) →
        next.StageSound config other (service.stage other))
    (cached : ∀ cached, next.cachedFee = some cached →
      config.floor ≤ cached.fee.toNat) :
    Sound config next := by
  refine ⟨?_, cached⟩
  intro other
  rw [moved]
  by_cases same : other = caller
  · subst same
    rw [Function.update_self]
    exact own
  · rw [Function.update_of_ne same]
    exact others other same (sound.stages other)

theorem moveTo {caller : Caller} {stage : CallerStage}
    (sound : Sound config service)
    (own : service.StageSound config caller stage) :
    Sound config (service.moveTo caller stage) := by
  have arrived : (service.moveTo caller stage).StageSound config caller stage :=
    own.mono id id
  apply sound.move rfl arrived
  · intro other _ relied
    exact relied.mono id id
  · exact sound.cached

theorem leave {caller : Caller} {stage : CallerStage}
    (sound : Sound config service)
    (finished : (service.leave caller stage).StageSound config caller stage) :
    Sound config (service.leave caller stage) := by
  apply sound.move rfl finished
  · intro other distinct relied
    refine relied.mono ?_ id
    intro locked
    have notCaller : service.refreshInProgress ≠ some caller := by
      rw [locked]
      exact fun same => distinct (Option.some.inj same)
    exact (if_neg notCaller).trans locked
  · exact sound.cached

/-- Each step of a caller keeps the service sound. -/
theorem perform {next : GasPriceService Caller}
    {action : GasPriceAction Caller} (sound : Sound config service)
    (performed : service.perform config action = some next) :
    Sound config next := by
  cases action with
  | call caller =>
      simp only [GasPriceService.perform] at performed
      split at performed
      · cases performed
        exact sound.moveTo trivial
      · cases performed
        exact sound.moveTo trivial
      · cases performed
  | fastPath caller =>
      simp only [GasPriceService.perform] at performed
      split at performed
      · split at performed
        · rename_i fee fresh
          cases performed
          exact sound.moveTo (sound.floor_le_freshFee fresh)
        · cases performed
          exact sound.moveTo trivial
      · cases performed
  | lockRefresh caller =>
      simp only [GasPriceService.perform] at performed
      split at performed
      · split at performed
        · rename_i free
          cases performed
          refine sound.move rfl rfl ?_ sound.cached
          intro other _ relied
          apply relied.of_unlocked
          simp [free]
        · cases performed
      · cases performed
  | doubleCheck caller =>
      have relied := sound.stages caller
      simp only [GasPriceService.perform] at performed
      split at performed
      · rename_i here
        rw [here] at relied
        split at performed
        · rename_i fee fresh
          cases performed
          exact sound.leave (sound.floor_le_freshFee fresh)
        · rename_i stale
          cases performed
          exact sound.moveTo ⟨relied, stale⟩
      · cases performed
  | fetch caller =>
      have relied := sound.stages caller
      simp only [GasPriceService.perform] at performed
      split at performed
      · rename_i here
        rw [here] at relied
        cases performed
        exact sound.moveTo relied.1
      · cases performed
  | answer caller reply =>
      have relied := sound.stages caller
      simp only [GasPriceService.perform] at performed
      split at performed
      · rename_i here
        rw [here] at relied
        split at performed
        · rename_i fee effective
          cases performed
          exact sound.moveTo
            ⟨relied, floor_le_of_effectiveBaseFee effective⟩
        · cases performed
          exact sound.leave trivial
      · cases performed
  | store caller =>
      have relied := sound.stages caller
      simp only [GasPriceService.perform] at performed
      split at performed
      · rename_i fee here
        rw [here] at relied
        cases performed
        refine sound.move rfl relied.2 ?_ ?_
        · intro other distinct others
          -- nobody else holds the lock, so nobody relies on a stale cache
          apply others.of_unlocked
          rw [relied.1]
          exact fun same => distinct (Option.some.inj same).symm
        · rintro cached ⟨⟩
          exact relied.2
      · cases performed
  | drop caller =>
      cases performed
      exact sound.leave trivial
  | elapse nanoseconds =>
      cases performed
      refine ⟨fun caller => ?_, sound.cached⟩
      exact (sound.stages caller).mono id
        fun stale => freshFee_elapse stale nanoseconds

theorem of_run {start : Nat} {actions : List (GasPriceAction Caller)}
    (run : Run (Step config) (.new start) actions service) :
    Sound config service :=
  run.preserves (.new start) fun _ _ _ sound performed =>
    sound.perform performed

end Sound

/-- Under any order of steps, one fetch is in flight at most, it starts with a
stale cache, and no fee below the floor is returned. -/
theorem fetches_of_run {start : Nat} {actions : List (GasPriceAction Caller)}
    (run : Run (Step config) (.new start) actions service) :
    (∀ first second, service.stage first = .fetching →
      service.stage second = .fetching → first = second) ∧
    (∀ caller next, Step config service (.fetch caller) next →
      ∀ cached, service.cachedFee = some cached →
        igraBlockTime ≤ service.now - cached.fetchedAt) ∧
    ∀ caller fee, service.stage caller = .done (.ok fee) →
      config.floor ≤ fee.toNat := by
  have sound := Sound.of_run run
  refine ⟨?_, ?_, ?_⟩
  · intro first second firstFetches secondFetches
    have firstLock := sound.stages first
    rw [firstFetches] at firstLock
    have secondLock := sound.stages second
    rw [secondFetches] at secondLock
    exact Option.some.inj (firstLock.symm.trans secondLock)
  · intro caller next fetched
    have relied := sound.stages caller
    simp only [Step, perform] at fetched
    split at fetched
    · rename_i here
      rw [here] at relied
      exact not_young_of_freshFee_eq_none relied.2
    · cases fetched
  · intro caller fee finished
    have above := sound.stages caller
    rw [finished] at above
    exact above

/-- Two callers find nothing cached; one of them fetches, and the other is
served from the cache. -/
def sharedFetch : List (GasPriceAction Bool) :=
  [.call true, .call false, .fastPath true, .fastPath false,
    .lockRefresh true, .doubleCheck true, .fetch true, .elapse 250000000,
    .answer true (.block (some 7)), .store true, .lockRefresh false,
    .doubleCheck false]

def sampleGasConfig : GasConfig := ⟨2000⟩

def afterSharedFetch : GasPriceService Bool :=
  (follow (fun _ _ => True) (perform sampleGasConfig) (.new 0)
    sharedFetch).getD (.new 0)

private theorem run_sharedFetch :
    Run (Step sampleGasConfig) (.new 0) sharedFetch afterSharedFetch := by
  have followed : follow (fun _ _ => True) (perform sampleGasConfig) (.new 0)
      sharedFetch = some afterSharedFetch := rfl
  exact (Run.of_follow (fun _ _ _ performed => performed) followed).unrestrict

theorem fetches_of_sharedFetch :
    afterSharedFetch.stage false = .done (.ok 2000000000000) ∧
      sampleGasConfig.floor ≤ (2000000000000 : U256).toNat :=
  ⟨rfl, (fetches_of_run run_sharedFetch).2.2 false _ rfl⟩

end GasPriceService

end Service

end RpcProvider
