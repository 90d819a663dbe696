import BatchGateway.Lib.Binary64
import BatchGateway.Util.AdaptiveSemaphore

/-! The controller that widens the limit of a semaphore after a window of successes and narrows it
after a rate limit. A new limit is computed under the mutex of the controller; the semaphore is
told about it afterwards, so several such calls may be under way. -/
namespace BatchGateway

open Interleaving

structure AIMDConfig where
  minLimit : Int
  maxLimit : Int
  /-- The decrease after a rate limit, between zero and one. -/
  backoffFactor : Binary64.UnitFloat
  /-- How many slots a window of successes adds. -/
  additiveIncrease : Int
  deriving DecidableEq, Repr

structure AIMDController where
  cfg : AIMDConfig
  limit : Int
  successCount : Int := 0
  deriving DecidableEq, Repr

def clamp (v lo hi : Int) : Int := if v < lo then lo else if v > hi then hi else v

/-- The sum of two machine integers. -/
def addInt (a b : Int) : Int := Int.bmod (a + b) (2 ^ 64)

namespace AIMDController

variable (c : AIMDController)

/-- Count a success. The second component is the new limit, or zero if there is none. -/
def computeSuccessLimit : AIMDController × Int :=
  let c := { c with successCount := c.successCount + 1 }
  if c.limit ≤ c.successCount then
    let oldLimit := c.limit
    let c := { c with
      limit := min (addInt c.limit c.cfg.additiveIncrease) c.cfg.maxLimit, successCount := 0 }
    if c.limit ≠ oldLimit then (c, c.limit) else (c, 0)
  else (c, 0)

/-- Cut the limit and start a new window. -/
def computeBackoffLimit : AIMDController × Int :=
  let oldLimit := c.limit
  let c := { c with
    limit := max c.cfg.minLimit (Binary64.floorMulInt c.limit c.cfg.backoffFactor)
    successCount := 0 }
  if c.limit ≠ oldLimit then (c, c.limit) else (c, 0)

end AIMDController

/-- A call of `setFn`: the new limit, and the position of the call of `SetLimit` it makes. -/
structure SetFnCall where
  newLimit : Int
  pos : Option Nat := none
  deriving DecidableEq, Repr

/-- A controller and its semaphore. -/
structure AIMDSystem where
  aimd : AIMDController
  sem : AdaptiveSemaphore
  /-- The calls of `setFn`, in the order in which their limits were computed. -/
  calls : List SetFnCall := []
  /-- The calls that have set the limit of the semaphore, the last one first. -/
  landed : List Nat := []
  deriving DecidableEq, Repr

inductive AIMDEvent where
  | recordSuccess
  | recordRateLimit
  /-- The call `k` of `setFn` starts its call of `SetLimit`. -/
  | setFn (k : Nat)
  /-- Any step of the semaphore and of its other users. -/
  | sem (e : SemEvent)
  deriving DecidableEq, Repr

namespace AIMDSystem

/-- The limit that is set before anybody else has the controller, if the initial one is outside
its range. -/
def newAIMDController (cfg : AIMDConfig) (initialLimit : Int) (sem : AdaptiveSemaphore) :
    Option AIMDSystem :=
  let limit := clamp initialLimit cfg.minLimit cfg.maxLimit
  let aimd : AIMDController := { cfg, limit }
  if limit ≠ initialLimit then
    (exec AdaptiveSemaphore.step sem
      [.invoke (.setLimit limit), .call 0, .call 0, .call 0, .call 0]).map ({ aimd, sem := · })
  else some { aimd, sem }

/-- A semaphore and its controller with one initial limit. -/
def init (cfg : AIMDConfig) (initialLimit : Int) (onDoubleRelease : Bool) : Option AIMDSystem :=
  (AdaptiveSemaphore.newAdaptive initialLimit onDoubleRelease).bind
    (newAIMDController cfg initialLimit)

variable (s : AIMDSystem)

/-- The outcome of a computation: a new limit is passed to `setFn`. -/
def computed (r : AIMDController × Int) : AIMDSystem :=
  if 0 < r.2 then { s with aimd := r.1, calls := s.calls ++ [{ newLimit := r.2 }] }
  else { s with aimd := r.1 }

/-- The call of `setFn` that sets the limit in a step of the semaphore. -/
def landing : SemEvent → Option Nat
  | .call i => s.sem.calls[i]?.bind fun c =>
    match c.op, c.phase with
    | .setLimit _, .locked => s.calls.findIdx? (·.pos = some i)
    | _, _ => none
  | _ => none

def isSetLimit : SemEvent → Bool
  | .invoke (.setLimit _) => true
  | _ => false

def step : AIMDEvent → Option AIMDSystem
  | .recordSuccess => some (s.computed s.aimd.computeSuccessLimit)
  | .recordRateLimit => some (s.computed s.aimd.computeBackoffLimit)
  | .setFn k => s.calls[k]?.bind fun c =>
    if c.pos = none then
      (s.sem.step (.invoke (.setLimit c.newLimit))).map fun sem =>
        { s with sem, calls := s.calls.set k { c with pos := some s.sem.calls.length } }
    else none
  | .sem e =>
    -- nobody else sets the limit
    if isSetLimit e then none
    else (s.sem.step e).map fun sem =>
      { s with sem, landed := (s.landing e).toList ++ s.landed }

/-- The call sets the limit and has not returned. -/
def isSetting (c : SemCall) : Bool :=
  match c.op, c.phase with
  | .setLimit _, .returned _ => false
  | .setLimit _, _ => true
  | _, _ => false

/-- No call of `setFn` is outstanding. -/
def Quiet : Prop := (∀ c ∈ s.calls, c.pos ≠ none) ∧ ∀ c ∈ s.sem.calls, isSetting c = false

/-- The calls of `setFn` took effect in the order in which their limits were computed. -/
def InOrder : Prop := s.landed.Pairwise (· > ·)

/-- The call that took effect last is the one whose limit was computed last, if there is one. -/
def LatestLanded : Prop := (s.landed.head?.map (· + 1)).getD 0 = s.calls.length

instance : Decidable s.Quiet := inferInstanceAs (Decidable (_ ∧ _))

instance : Decidable s.InOrder := inferInstanceAs (Decidable (List.Pairwise _ _))

end AIMDSystem

/-! ### The limit of the semaphore -/

namespace AdaptiveSemaphore

variable {s t : AdaptiveSemaphore} {e : SemEvent} {i : Nat} {c c' : SemCall}

/-- The call has not taken effect yet. -/
def isEarly : SemPhase → Bool
  | .entering | .locked => true
  | _ => false

/-- The new limit of a call of `SetLimit`, and whether it still has to be set. -/
def settingOf (c : SemCall) : Option (Int × Bool) :=
  match c.op with
  | .setLimit newLimit => some (newLimit, isEarly c.phase)
  | _ => none

theorem settingOf_eq (hop : c'.op = c.op) (hphase : isEarly c'.phase = isEarly c.phase) :
    settingOf c' = settingOf c := by
  unfold settingOf
  rw [hop, hphase]

theorem settingOf_of_not (hop : c'.op = c.op) (hnot : ∀ n, c.op ≠ .setLimit n) :
    settingOf c' = settingOf c := by
  unfold settingOf
  rw [hop]
  split
  next n hn => exact absurd hn (hnot n)
  next => rfl

/-- What a step of the semaphore does to its limit and to the calls that set it. -/
inductive LimitStep (s t : AdaptiveSemaphore) (e : SemEvent) : Prop where
  | invoke (op : SemOp) (he : e = .invoke op) (hcalls : t.calls = s.calls ++ [{ op := op }])
      (hlimit : t.limit = s.limit)
  | set (i : Nat) (c : SemCall) (n : Int) (he : e = .call i) (hi : s.calls[i]? = some c)
      (hop : c.op = .setLimit n) (hphase : c.phase = .locked)
      (hcalls : t.calls = s.calls.set i { c with phase := .broadcasting })
      (hlimit : t.limit = if n < 1 then 1 else n)
  | other (hnot : ∀ i c n, e = .call i → s.calls[i]? = some c → c.op = .setLimit n →
        c.phase ≠ .locked)
      (hinvoke : ∀ op, e ≠ .invoke op)
      (hcalls : t.calls.map settingOf = s.calls.map settingOf) (hlimit : t.limit = s.limit)

section

variable (hi : s.calls[i]? = some c)
include hi

/-- A step of a call that is not in `SetLimit` under the mutex. -/
theorem LimitStep.move (hcalls : t.calls = s.calls.set i c') (hlimit : t.limit = s.limit)
    (hop : c'.op = c.op) (hlocked : c.phase ≠ .locked) (hphase : isEarly c'.phase = isEarly c.phase)
    : LimitStep s t (.call i) := by
  refine .other (fun j x n he hj _ => ?_) nofun ?_ hlimit
  · cases he
    cases hi.symm.trans hj
    exact hlocked
  · rw [hcalls]
    exact map_set_of_eq hi (settingOf_eq hop hphase)

/-- A step of a call of another operation. -/
theorem LimitStep.pass (hcalls : t.calls = s.calls.set i c') (hlimit : t.limit = s.limit)
    (hop : c'.op = c.op) (hnot : ∀ n, c.op ≠ .setLimit n) :
    LimitStep s t (.call i) := by
  refine .other (fun j x n he hj hx => ?_) nofun ?_ hlimit
  · cases he
    cases hi.symm.trans hj
    exact absurd hx (hnot n)
  · rw [hcalls]
    exact map_set_of_eq hi (settingOf_of_not hop hnot)

theorem enter_limit (hphase : c.phase = .locked) :
    LimitStep s (s.enter i c) (.call i) := by
  unfold enter
  split
  next hop =>
    split
    · exact .pass hi rfl rfl rfl (by simp [hop])
    · exact .pass hi rfl rfl rfl (by simp [hop])
  next hop =>
    split
    · exact .pass hi rfl rfl rfl (by simp [hop])
    · exact .pass hi rfl rfl rfl (by simp [hop])
  next hop =>
    split
    · exact .pass hi rfl rfl rfl (by simp [hop])
    · exact .pass hi rfl rfl rfl (by simp [hop])
  next n hop => exact .set i c n rfl hi hop hphase rfl rfl

theorem stepCall_limit (hs : s.stepCall i c = some t) :
    LimitStep s t (.call i) := by
  -- from every phase after the first two the call moves to one of the others
  have hmove {phase : SemPhase} (hcalls : t.calls = s.calls.set i { c with phase })
      (hlimit : t.limit = s.limit) (hc : isEarly c.phase = false) (hp : isEarly phase = false) :
      LimitStep s t (.call i) := by
    refine .move hi hcalls hlimit rfl (fun hl => ?_) (hp.trans hc.symm)
    rw [hl] at hc
    cases hc
  unfold stepCall at hs
  split at hs
  next hphase =>
    obtain ⟨-, rfl⟩ := of_guarded hs
    exact .move hi rfl rfl rfl (by simp [hphase]) (by simp [hphase, isEarly])
  next hphase =>
    cases hs
    exact enter_limit hi hphase
  next hphase =>
    split at hs <;>
      (cases hs
       exact hmove rfl rfl (by rw [hphase]; rfl) rfl)
  next hphase =>
    split at hs <;>
      (cases hs
       exact hmove rfl rfl (by rw [hphase]; rfl) rfl)
  next hphase =>
    cases hs
    exact hmove rfl rfl (by rw [hphase]; rfl) rfl
  next hphase =>
    cases hs
    exact hmove rfl rfl (by rw [hphase]; rfl) rfl
  next hphase =>
    obtain ⟨-, rfl⟩ := of_unless hs
    exact hmove rfl rfl (by rw [hphase]; rfl) rfl
  next hphase =>
    obtain ⟨-, rfl⟩ := of_guarded hs
    exact hmove rfl rfl (by rw [hphase]; rfl) rfl
  next hphase =>
    cases hs
    exact hmove rfl rfl (by rw [hphase]; rfl) rfl
  next hphase =>
    cases hs
    exact hmove rfl rfl (by rw [hphase]; rfl) rfl
  next hphase =>
    cases hs
    exact hmove rfl rfl (by rw [hphase]; rfl) rfl
  next ok hphase =>
    cases hs
    refine hmove rfl rfl (by rw [hphase]; rfl) ?_
    unfold afterUnlock
    split <;> rfl
  next hphase =>
    cases hs
    exact hmove rfl rfl (by rw [hphase]; rfl) rfl
  next => cases hs

/-- A step of a watcher leaves the calls where they are. -/
theorem LimitStep.watch (he : ∀ j, e ≠ .call j) (hinvoke : ∀ op, e ≠ .invoke op)
    {watcher : WatcherPhase} (hcalls : t.calls = s.calls.set i { c with watcher })
    (hlimit : t.limit = s.limit) :
    LimitStep s t e := by
  refine .other (fun j _ _ hj => absurd hj (he j)) hinvoke ?_ hlimit
  rw [hcalls]
  exact map_set_of_eq hi (settingOf_eq rfl rfl)

end

theorem step_limit (hs : s.step e = some t) : LimitStep s t e := by
  cases e with
  | invoke op =>
    cases hs
    exact .invoke op rfl rfl rfl
  | call i =>
    obtain ⟨c, hi, hs⟩ := Option.bind_eq_some_iff.1 hs
    exact stepCall_limit hi hs
  | trigger i | stop i | broadcast i =>
    obtain ⟨c, hi, hs⟩ := Option.bind_eq_some_iff.1 hs
    obtain ⟨-, rfl⟩ := of_guarded hs
    exact .watch hi nofun nofun rfl rfl
  | cancel ctx =>
    cases hs
    exact .other nofun nofun rfl rfl

end AdaptiveSemaphore

/-! ### The limit of the controller -/

/-- A usable configuration: the range is not empty, and adding to a limit does not overflow. -/
structure AIMDConfig.Valid (cfg : AIMDConfig) : Prop where
  min_pos : 1 ≤ cfg.minLimit
  min_le_max : cfg.minLimit ≤ cfg.maxLimit
  increase_pos : 0 < cfg.additiveIncrease
  no_overflow : cfg.maxLimit + cfg.additiveIncrease < 2 ^ 63

namespace AIMDController

variable {c : AIMDController}

def InRange (c : AIMDController) : Prop := c.cfg.minLimit ≤ c.limit ∧ c.limit ≤ c.cfg.maxLimit

/-- What a computation returns: the new limit if it has changed. -/
structure Computes (c : AIMDController) (r : AIMDController × Int) : Prop where
  config : r.1.cfg = c.cfg
  inRange : r.1.InRange
  result : r.2 = 0 ∧ r.1.limit = c.limit ∨ r.2 = r.1.limit

theorem addInt_eq {a b : Int} (h : -2 ^ 63 ≤ a + b) (h' : a + b < 2 ^ 63) : addInt a b = a + b := by
  unfold addInt
  rw [Int.bmod_eq_of_le_mul_two (by omega) (by omega)]

theorem computeSuccessLimit_computes (hcfg : c.cfg.Valid) (h : c.InRange) :
    Computes c c.computeSuccessLimit := by
  have hlow := h.1
  have hhigh := h.2
  have := hcfg.min_pos
  have := hcfg.increase_pos
  have := hcfg.no_overflow
  have hsum : addInt c.limit c.cfg.additiveIncrease = c.limit + c.cfg.additiveIncrease :=
    addInt_eq (by omega) (by omega)
  have hnext : c.cfg.minLimit ≤ min (c.limit + c.cfg.additiveIncrease) c.cfg.maxLimit ∧
      min (c.limit + c.cfg.additiveIncrease) c.cfg.maxLimit ≤ c.cfg.maxLimit := by omega
  unfold computeSuccessLimit
  dsimp only
  rw [hsum]
  split
  · split
    · exact ⟨rfl, hnext, .inr rfl⟩
    next heq => exact ⟨rfl, hnext, .inl ⟨rfl, not_not.1 heq⟩⟩
  · exact ⟨rfl, h, .inl ⟨rfl, rfl⟩⟩

theorem computeBackoffLimit_computes (hcfg : c.cfg.Valid) (h : c.InRange) :
    Computes c c.computeBackoffLimit := by
  have hlow := h.1
  have hhigh := h.2
  have := hcfg.min_pos
  have hcut := Binary64.floorMulInt_le (show 0 ≤ c.limit by omega) c.cfg.backoffFactor
  have hnext : c.cfg.minLimit ≤
        max c.cfg.minLimit (Binary64.floorMulInt c.limit c.cfg.backoffFactor) ∧
      max c.cfg.minLimit (Binary64.floorMulInt c.limit c.cfg.backoffFactor) ≤ c.cfg.maxLimit := by
    omega
  unfold computeBackoffLimit
  dsimp only
  split
  · exact ⟨rfl, hnext, .inr rfl⟩
  next heq => exact ⟨rfl, hnext, .inl ⟨rfl, not_not.1 heq⟩⟩

end AIMDController

/-! ### The two limits -/

namespace AIMDSystem

open AdaptiveSemaphore

variable {s t : AIMDSystem} {cfg : AIMDConfig} {first : Int}

/-- The limits in the order in which they were computed. -/
def limits (s : AIMDSystem) : List Int := s.calls.map SetFnCall.newLimit

/-- The last limit that was computed and the last one that was set, where `first` is the limit at
the start. -/
structure Sound (cfg : AIMDConfig) (first : Int) (s : AIMDSystem) : Prop where
  config : s.aimd.cfg = cfg
  inRange : s.aimd.InRange
  bounded : ∀ n ∈ s.limits, cfg.minLimit ≤ n ∧ n ≤ cfg.maxLimit
  newest : s.aimd.limit = s.limits.getLast?.getD first
  landed_lt : ∀ k ∈ s.landed, k < s.calls.length
  current : s.sem.limit = (s.landed.head?.bind fun k => s.limits[k]?).getD first
  /-- A call that has set the limit is in the list of those. -/
  linked : ∀ k c i, s.calls[k]? = some c → c.pos = some i →
    ∃ early, (s.sem.calls.map settingOf)[i]? = some (some (c.newLimit, early)) ∧
      (early = false → k ∈ s.landed)
  distinct : ∀ (j k : Nat) (x y : SetFnCall) (i : Nat), s.calls[j]? = some x →
    s.calls[k]? = some y → x.pos = some i → y.pos = some i → j = k
  /-- Only `setFn` sets the limit. -/
  traced : ∀ i n, (s.sem.calls.map settingOf)[i]? = some (some (n, true)) →
    ∃ c ∈ s.calls, c.pos = some i

theorem Sound.computed {r : AIMDController × Int} (hcfg : cfg.Valid) (h : Sound cfg first s)
    (hr : s.aimd.Computes r) : Sound cfg first (s.computed r) := by
  have hconfig : r.1.cfg = cfg := hr.config.trans h.config
  have hpos : 0 < r.1.limit := by
    have hlow := hr.inRange.1
    have := hcfg.min_pos
    rw [hconfig] at hlow
    omega
  unfold AIMDSystem.computed
  split
  next hchanged =>
    have hresult : r.2 = r.1.limit := by
      rcases hr.result with ⟨hzero, -⟩ | heq
      · omega
      · exact heq
    have hlimits : AIMDSystem.limits { s with
        aimd := r.1, calls := s.calls ++ [{ newLimit := r.2 }] } = s.limits ++ [r.2] := by
      simp [limits]
    refine ⟨hconfig, hr.inRange, ?_, ?_, ?_, ?_, ?_, ?_, ?_⟩
    · rw [hlimits]
      intro n hn
      rcases List.mem_append.1 hn with hn | hn
      · exact h.bounded n hn
      · rw [List.mem_singleton.1 hn, hresult, ← hconfig]
        exact hr.inRange
    · rw [hlimits]
      simp [hresult]
    · intro k hk
      have := h.landed_lt k hk
      simp only [List.length_append, List.length_singleton]
      omega
    · rw [hlimits]
      refine h.current.trans ?_
      cases hhead : s.landed.head? with
      | none => rfl
      | some k =>
        have hk : k < s.limits.length := by
          simpa [limits] using h.landed_lt k (List.mem_of_head? hhead)
        simp [List.getElem?_append_left hk]
    · intro k c i hk hc
      rcases getElem?_snoc_cases hk with ⟨-, rfl⟩ | ⟨-, hk⟩
      · cases hc
      · exact h.linked k c i hk hc
    · intro j k x y i hj hk hx hy
      rcases getElem?_snoc_cases hj with ⟨-, rfl⟩ | ⟨-, hj⟩
      · cases hx
      · rcases getElem?_snoc_cases hk with ⟨-, rfl⟩ | ⟨-, hk⟩
        · cases hy
        · exact h.distinct j k x y i hj hk hx hy
    · intro i n hi
      obtain ⟨c, hc, hpos⟩ := h.traced i n hi
      exact ⟨c, List.mem_append_left _ hc, hpos⟩
  next hsame =>
    have hlimit : r.1.limit = s.aimd.limit := by
      rcases hr.result with ⟨-, heq⟩ | heq
      · exact heq
      · omega
    exact ⟨hconfig, hr.inRange, h.bounded, hlimit.trans h.newest, h.landed_lt, h.current, h.linked,
      h.distinct, h.traced⟩

/-- A call of `setFn` starts its call of `SetLimit`. -/
theorem Sound.setFn (h : Sound cfg first s) {k : Nat} {c : SetFnCall} {sem : AdaptiveSemaphore}
    (hk : s.calls[k]? = some c) (hc : c.pos = none)
    (hcalls : sem.calls = s.sem.calls ++ [{ op := .setLimit c.newLimit }])
    (hlimit : sem.limit = s.sem.limit) :
    Sound cfg first { s with
      sem, calls := s.calls.set k { c with pos := some s.sem.calls.length } } := by
  have hlimits : AIMDSystem.limits { s with
      sem, calls := s.calls.set k { c with pos := some s.sem.calls.length } } = s.limits :=
    map_set_of_eq hk rfl
  have hviews : sem.calls.map settingOf =
      s.sem.calls.map settingOf ++ [some (c.newLimit, true)] := by
    rw [hcalls, List.map_append]
    rfl
  refine ⟨h.config, h.inRange, hlimits ▸ h.bounded, hlimits ▸ h.newest, ?_, ?_, ?_, ?_, ?_⟩
  · simpa using h.landed_lt
  · rw [hlimits]
    exact hlimit.trans h.current
  · intro j x i hj hx
    simp only [hviews]
    rcases getElem?_set_cases hj with ⟨-, rfl⟩ | ⟨-, hj⟩
    · -- the call that starts now is the last one of the semaphore
      cases hx
      refine ⟨true, ?_, nofun⟩
      simp
    · obtain ⟨early, hi, hlanded⟩ := h.linked j x i hj hx
      have hlt := (List.getElem?_eq_some_iff.1 hi).1
      exact ⟨early, by rw [List.getElem?_append_left hlt, hi], hlanded⟩
  · -- the other calls are at earlier positions
    have hearlier (j : Nat) (x : SetFnCall) (hj : s.calls[j]? = some x) :
        x.pos ≠ some s.sem.calls.length := by
      intro hx
      obtain ⟨early, hi, -⟩ := h.linked j x _ hj hx
      have hlt := (List.getElem?_eq_some_iff.1 hi).1
      simp at hlt
    intro j l x y i hj hl hx hy
    rcases getElem?_set_cases hj with ⟨rfl, rfl⟩ | ⟨-, hj⟩
    · rcases getElem?_set_cases hl with ⟨rfl, -⟩ | ⟨-, hl⟩
      · rfl
      · cases hx
        exact absurd hy (hearlier l y hl)
    · rcases getElem?_set_cases hl with ⟨-, rfl⟩ | ⟨-, hl⟩
      · cases hy
        exact absurd hx (hearlier j x hj)
      · exact h.distinct j l x y i hj hl hx hy
  · intro i n hi
    simp only [hviews] at hi
    have hmem : ∀ x ∈ s.calls, x.pos ≠ none →
        x ∈ s.calls.set k { c with pos := some s.sem.calls.length } := by
      intro x hx hpos
      obtain ⟨j, hj⟩ := List.mem_iff_getElem?.1 hx
      have hkj : k ≠ j := by
        rintro rfl
        cases hk.symm.trans hj
        exact hpos hc
      exact List.mem_iff_getElem?.2 ⟨j, by rw [List.getElem?_set_ne hkj, hj]⟩
    rcases getElem?_snoc_cases hi with ⟨rfl, -⟩ | ⟨-, hi⟩
    · have hlt := (List.getElem?_eq_some_iff.1 hk).1
      refine ⟨_, List.mem_iff_getElem?.2 ⟨k, List.getElem?_set_self hlt⟩, ?_⟩
      simp
    · obtain ⟨x, hx, hpos⟩ := h.traced i n hi
      exact ⟨x, hmem x hx (by rw [hpos]; exact nofun), hpos⟩

/-- A step of the semaphore that sets no limit. -/
theorem Sound.other (h : Sound cfg first s) {sem : AdaptiveSemaphore}
    (more : List (Option (Int × Bool))) (hmore : ∀ v ∈ more, v = none)
    (hviews : sem.calls.map settingOf = s.sem.calls.map settingOf ++ more)
    (hlimit : sem.limit = s.sem.limit) : Sound cfg first { s with sem } := by
  refine ⟨h.config, h.inRange, h.bounded, h.newest, h.landed_lt, hlimit.trans h.current, ?_,
    h.distinct, ?_⟩
  · intro k c i hk hc
    obtain ⟨early, hi, hlanded⟩ := h.linked k c i hk hc
    have hlt := (List.getElem?_eq_some_iff.1 hi).1
    exact ⟨early, by rw [hviews, List.getElem?_append_left hlt, hi], hlanded⟩
  · intro i n hi
    rw [hviews] at hi
    rcases Nat.lt_or_ge i (s.sem.calls.map settingOf).length with hlt | hge
    · rw [List.getElem?_append_left hlt] at hi
      exact h.traced i n hi
    · rw [List.getElem?_append_right hge] at hi
      cases hmore _ (List.mem_of_getElem? hi)

/-- A call of `SetLimit` sets the limit. -/
theorem Sound.set (hcfg : cfg.Valid) (h : Sound cfg first s) {sem : AdaptiveSemaphore} {i : Nat}
    {c : SemCall} {n : Int} (hi : s.sem.calls[i]? = some c) (hop : c.op = .setLimit n)
    (hphase : c.phase = .locked)
    (hcalls : sem.calls = s.sem.calls.set i { c with phase := .broadcasting })
    (hlimit : sem.limit = if n < 1 then 1 else n) :
    Sound cfg first { s with sem, landed := (s.landing (.call i)).toList ++ s.landed } := by
  have hview : (s.sem.calls.map settingOf)[i]? = some (some (n, true)) := by
    rw [List.getElem?_map, hi]
    simp [settingOf, hop, hphase, isEarly]
  have hviews : sem.calls.map settingOf = (s.sem.calls.map settingOf).set i (some (n, false)) := by
    rw [hcalls, List.map_set]
    congr 1
    simp [settingOf, hop, isEarly]
  -- the call of `setFn` that made it
  obtain ⟨x, hx, hpos⟩ := h.traced i n hview
  obtain ⟨k, hk⟩ : ∃ k, s.calls.findIdx? (fun c => c.pos = some i) = some k := by
    rw [← Option.isSome_iff_exists, List.findIdx?_isSome, List.any_eq_true]
    exact ⟨x, hx, by simpa using hpos⟩
  have hlanding : s.landing (.call i) = some k := by
    simp only [landing, hi, Option.bind_some, hop, hphase]
    exact hk
  obtain ⟨hlt, hfound, -⟩ := List.findIdx?_eq_some_iff_getElem.1 hk
  have hget : s.calls[k]? = some s.calls[k] := List.getElem?_eq_getElem hlt
  have hpos' : s.calls[k].pos = some i := of_decide_eq_true hfound
  have hvalue : s.limits[k]? = some n := by
    obtain ⟨early, hold, -⟩ := h.linked k _ i hget hpos'
    cases hview.symm.trans hold
    rw [limits, List.getElem?_map, hget]
    rfl
  have hn : ¬ n < 1 := by
    have := (h.bounded n (List.mem_of_getElem? hvalue)).1
    have := hcfg.min_pos
    omega
  rw [hlanding]
  refine ⟨h.config, h.inRange, h.bounded, h.newest, ?_, ?_, ?_, h.distinct, ?_⟩
  · intro j hj
    rcases List.mem_cons.1 hj with rfl | hj
    · exact hlt
    · exact h.landed_lt j hj
  · rw [hlimit, if_neg hn]
    change n = ((some k).bind fun k => s.limits[k]?).getD first
    simp [hvalue]
  · intro j y l hj hy
    simp only [hviews]
    obtain ⟨early, hl, hlanded⟩ := h.linked j y l hj hy
    by_cases hil : i = l
    · subst hil
      cases hview.symm.trans hl
      refine ⟨false, ?_, fun _ => ?_⟩
      · rw [List.getElem?_set_self (List.getElem?_eq_some_iff.1 hview).1]
      · rw [h.distinct j k y _ i hj hget hy hpos']
        exact List.mem_cons_self
    · refine ⟨early, ?_, fun he => List.mem_cons_of_mem _ (hlanded he)⟩
      rw [List.getElem?_set_ne hil, hl]
  · intro l m hl
    simp only [hviews] at hl
    rcases getElem?_set_cases hl with ⟨-, heq⟩ | ⟨-, hl⟩
    · cases heq
    · exact h.traced l m hl

theorem landing_eq_none {e : SemEvent} (hnot : ∀ i c n, e = .call i → s.sem.calls[i]? = some c →
    c.op = .setLimit n → c.phase ≠ .locked) : s.landing e = none := by
  unfold landing
  split
  next i =>
    rw [Option.bind_eq_none_iff]
    intro c hi
    split
    next n hop hphase => exact absurd hphase (hnot i c n rfl hi hop)
    next => rfl
  next => rfl

theorem Sound.step (hcfg : cfg.Valid) (h : Sound cfg first s) {e : AIMDEvent}
    (hs : s.step e = some t) : Sound cfg first t := by
  have hvalid : s.aimd.cfg.Valid := h.config ▸ hcfg
  cases e with
  | recordSuccess =>
    cases hs
    exact h.computed hcfg (AIMDController.computeSuccessLimit_computes hvalid h.inRange)
  | recordRateLimit =>
    cases hs
    exact h.computed hcfg (AIMDController.computeBackoffLimit_computes hvalid h.inRange)
  | setFn k =>
    obtain ⟨c, hk, hs⟩ := Option.bind_eq_some_iff.1 hs
    simp only [Option.ite_none_right_eq_some, Option.map_eq_some_iff] at hs
    obtain ⟨hc, sem, hsem, rfl⟩ := hs
    cases hsem
    exact h.setFn hk hc rfl rfl
  | sem e =>
    simp only [AIMDSystem.step, Option.ite_none_left_eq_some, Option.map_eq_some_iff] at hs
    obtain ⟨he, sem, hsem, rfl⟩ := hs
    cases step_limit hsem with
    | invoke op hop hcalls hlimit =>
      subst hop
      have hnone : settingOf { op := op } = none := by
        cases op with
        | setLimit n => exact absurd rfl he
        | acquire | release | tryAcquire => rfl
      refine h.other [none] (by simp) ?_ hlimit
      rw [hcalls, List.map_append, List.map_singleton, hnone]
    | set i c n hcall hi hop hphase hcalls hlimit =>
      subst hcall
      exact h.set hcfg hi hop hphase hcalls hlimit
    | other hnot _ hcalls hlimit =>
      rw [landing_eq_none hnot]
      exact h.other [] nofun (by rw [hcalls, List.append_nil]) hlimit

theorem clamp_inRange {v lo hi : Int} (h : lo ≤ hi) : lo ≤ clamp v lo hi ∧ clamp v lo hi ≤ hi := by
  unfold clamp
  split
  · omega
  · split <;> omega

theorem sound_init (hcfg : cfg.Valid) {initialLimit : Int} {onDoubleRelease : Bool}
    (hinit : init cfg initialLimit onDoubleRelease = some s) : Sound cfg s.aimd.limit s := by
  have hrange := clamp_inRange (v := initialLimit) hcfg.min_le_max
  obtain ⟨sem, hsem, hs⟩ := Option.bind_eq_some_iff.1 hinit
  obtain ⟨-, rfl⟩ := of_unless hsem
  unfold newAIMDController at hs
  dsimp only at hs
  split at hs
  · -- the first call of `SetLimit` has returned
    cases hs
    have hpos : ¬ clamp initialLimit cfg.minLimit cfg.maxLimit < 1 := by
      have := hcfg.min_pos
      omega
    refine ⟨rfl, hrange, nofun, rfl, nofun, if_neg hpos, nofun, nofun, fun i n hi => ?_⟩
    cases i with
    | zero => cases hi
    | succ i => cases hi
  next heq =>
    cases hs
    exact ⟨rfl, hrange, nofun, rfl, nofun, (not_not.1 heq).symm, nofun, nofun, nofun⟩

/-- Without outstanding calls every one of them has set the limit. -/
theorem Sound.landed_of_quiet (h : Sound cfg first s) (hq : s.Quiet) {k : Nat}
    (hk : k < s.calls.length) : k ∈ s.landed := by
  have hget : s.calls[k]? = some s.calls[k] := List.getElem?_eq_getElem hk
  obtain ⟨i, hi⟩ := Option.ne_none_iff_exists'.1 (hq.1 _ (List.getElem_mem hk))
  obtain ⟨early, hview, hlanded⟩ := h.linked k _ i hget hi
  apply hlanded
  rw [List.getElem?_map, Option.map_eq_some_iff] at hview
  obtain ⟨c, hc, hsetting⟩ := hview
  have hdone := hq.2 c (List.mem_of_getElem? hc)
  unfold settingOf at hsetting
  split at hsetting
  next n hop =>
    cases hsetting
    unfold isSetting at hdone
    rw [hop] at hdone
    cases hphase : c.phase with
    | returned ok => rfl
    | _ =>
      rw [hphase] at hdone
      cases hdone
  next => cases hsetting

theorem Sound.latest_of_inOrder (h : Sound cfg first s) (hq : s.Quiet) (ho : s.InOrder) :
    s.LatestLanded := by
  unfold LatestLanded InOrder at *
  have hall := fun k => h.landed_of_quiet hq (k := k)
  have hlt := h.landed_lt
  cases hlanded : s.landed with
  | nil =>
    rw [hlanded] at hall
    have hempty : ¬ 0 < s.calls.length := fun hpos => nomatch hall 0 hpos
    simp only [List.head?_nil, Option.map_none, Option.getD_none]
    omega
  | cons k ks =>
    rw [hlanded] at hall hlt ho
    have hk := hlt k List.mem_cons_self
    -- the last call that was computed is not beyond the last one that took effect
    have hlast : s.calls.length - 1 ≤ k := by
      rcases List.mem_cons.1 (hall (s.calls.length - 1) (by omega)) with heq | hmem
      · omega
      · have := List.rel_of_pairwise_cons ho hmem
        omega
    simp only [List.head?_cons, Option.map_some, Option.getD_some]
    omega

theorem Sound.agree (h : Sound cfg first s) (hl : s.LatestLanded) :
    s.sem.limit = s.aimd.limit := by
  rw [h.current, h.newest, List.getLast?_eq_getElem?]
  unfold LatestLanded at hl
  have hlength : s.limits.length = s.calls.length := List.length_map _
  cases hlanded : s.landed with
  | nil =>
    rw [hlanded] at hl
    have hzero : s.limits.length = 0 := by
      rw [hlength]
      simpa using hl.symm
    rw [List.eq_nil_of_length_eq_zero hzero]
    rfl
  | cons k ks =>
    rw [hlanded] at hl
    have hk : s.limits.length - 1 = k := by
      simp only [List.head?_cons, Option.map_some, Option.getD_some] at hl
      omega
    simp [hk]

theorem Sound.sem_inRange (h : Sound cfg first s)
    (hfirst : cfg.minLimit ≤ first ∧ first ≤ cfg.maxLimit) :
    cfg.minLimit ≤ s.sem.limit ∧ s.sem.limit ≤ cfg.maxLimit := by
  rw [h.current]
  cases hset : s.landed.head?.bind fun k => s.limits[k]? with
  | none => exact hfirst
  | some n =>
    obtain ⟨k, -, hk⟩ := Option.bind_eq_some_iff.1 hset
    exact h.bounded n (List.mem_of_getElem? hk)

/-- Both limits stay in their range. They agree whenever the call of `setFn` that took effect last
was computed last, and so whenever no call is outstanding and the calls took effect in the order of
their computation. -/
theorem limits_agree (hcfg : cfg.Valid) {initialLimit : Int} {onDoubleRelease : Bool}
    {s₀ : AIMDSystem} (hinit : init cfg initialLimit onDoubleRelease = some s₀)
    {es : List AIMDEvent} (hrun : exec AIMDSystem.step s₀ es = some s) :
    (cfg.minLimit ≤ s.aimd.limit ∧ s.aimd.limit ≤ cfg.maxLimit) ∧
    (cfg.minLimit ≤ s.sem.limit ∧ s.sem.limit ≤ cfg.maxLimit) ∧
    (s.LatestLanded → s.sem.limit = s.aimd.limit) ∧
    (s.Quiet → s.InOrder → s.sem.limit = s.aimd.limit) := by
  have hsound₀ := sound_init hcfg hinit
  have h : Sound cfg s₀.aimd.limit s :=
    exec_invariant (fun _ _ _ hsound hs => Sound.step hcfg hsound hs) hrun hsound₀
  have hrange : cfg.minLimit ≤ s₀.aimd.limit ∧ s₀.aimd.limit ≤ cfg.maxLimit := by
    rw [← hsound₀.config]
    exact hsound₀.inRange
  refine ⟨?_, h.sem_inRange hrange, h.agree, fun hq ho => h.agree (h.latest_of_inOrder hq ho)⟩
  rw [← h.config]
  exact h.inRange

/-- Limits from one to ten, one slot more after each window, half of them after a rate limit. -/
def smallConfig : AIMDConfig where
  minLimit := 1
  maxLimit := 10
  backoffFactor := ⟨1, 1, by decide, by decide, by decide, by decide⟩
  additiveIncrease := 1

/-- Two windows of successes, whose limits are computed before either of them is set. -/
def twoWindows : List AIMDEvent := [.recordSuccess, .recordSuccess, .recordSuccess]

/-- The call `k` of `setFn`, which makes the call `i` of the semaphore. -/
def setting (k i : Nat) : List AIMDEvent :=
  [.setFn k, .sem (.call i), .sem (.call i), .sem (.call i), .sem (.call i)]

theorem orderedCalls_agree : ∃ s₀ s, init smallConfig 1 false = some s₀ ∧
    exec AIMDSystem.step s₀ (twoWindows ++ setting 0 0 ++ setting 1 1) = some s ∧
    s.aimd.limit = 3 ∧ s.sem.limit = s.aimd.limit := by
  have hinit : init smallConfig 1 false = some ⟨⟨smallConfig, 1, 0⟩, { limit := 1 }, [], []⟩ := rfl
  have hend : (exec AIMDSystem.step ⟨⟨smallConfig, 1, 0⟩, { limit := 1 }, [], []⟩
      (twoWindows ++ setting 0 0 ++ setting 1 1)).map
      (fun s => (s.aimd.limit, decide (s.Quiet ∧ s.InOrder))) = some (3, true) := by
    decide +kernel
  obtain ⟨s, hs, heq⟩ := Option.map_eq_some_iff.1 hend
  obtain ⟨hlimit, hquiet⟩ := Prod.mk.inj heq
  obtain ⟨hq, ho⟩ := of_decide_eq_true hquiet
  have hvalid : smallConfig.Valid := ⟨by decide, by decide, by decide, by decide⟩
  exact ⟨_, s, hinit, hs, hlimit, (limits_agree hvalid hinit hs).2.2.2 hq ho⟩

/-- The second limit is set before the first one, which then stays. -/
theorem overtakenCall_differs : ∃ s₀ s, init smallConfig 1 false = some s₀ ∧
    exec AIMDSystem.step s₀ (twoWindows ++ setting 1 0 ++ setting 0 1) = some s ∧
    s.Quiet ∧ s.aimd.limit = 3 ∧ s.sem.limit = 2 := by
  have hinit : init smallConfig 1 false = some ⟨⟨smallConfig, 1, 0⟩, { limit := 1 }, [], []⟩ := rfl
  have hend : (exec AIMDSystem.step ⟨⟨smallConfig, 1, 0⟩, { limit := 1 }, [], []⟩
      (twoWindows ++ setting 1 0 ++ setting 0 1)).map
      (fun s => (decide s.Quiet, s.aimd.limit, s.sem.limit)) = some (true, 3, 2) := by
    decide +kernel
  obtain ⟨s, hs, heq⟩ := Option.map_eq_some_iff.1 hend
  obtain ⟨hquiet, heq⟩ := Prod.mk.inj heq
  obtain ⟨hlimit, hset⟩ := Prod.mk.inj heq
  exact ⟨_, s, hinit, hs, of_decide_eq_true hquiet, hlimit, hset⟩

end AIMDSystem
end BatchGateway
