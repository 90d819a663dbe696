import BatchGateway.Pipeline.Control
import BatchGateway.Pipeline.Duties

/-! What the goroutines of an execution know about the store, in every reachable state. -/
namespace BatchGateway

open Interleaving

/-- The source ends with an error. -/
def SourcePC.failed : SourcePC → Bool
  | .close err | .leave err => err.isSome
  | _ => false

namespace Run

variable {S : Setup} {cfg : RunConfig} {env : Surroundings} {r r' : Run} {w w' : World}

/-! ### Frames -/

/-- The dispatchers behind the pre-dispatcher moved and nothing else. -/
structure Frame (r r' : Run) : Prop where
  job : r'.job = r.job
  seed : r'.seed = r.seed
  counts : r'.counts = r.counts
  failure : r'.failure = r.failure
  jobCause : r'.jobCause = r.jobCause
  groupCause : r'.groupCause = r.groupCause
  dispatchCause : r'.dispatchCause = r.dispatchCause
  source : r'.source = r.source
  pre : r'.pre = r.pre
  drain : r'.drain = r.drain

theorem frame_sendPreResult {d : Delivery} (hs : r.sendPreResult d = some r') : r.Frame r' := by
  unfold sendPreResult at hs
  split at hs <;> cases hs
  constructor <;> rfl

theorem frame_sendAimdResult {d : Delivery} (hs : r.sendAimdResult d = some r') : r.Frame r' := by
  unfold sendAimdResult at hs
  split at hs <;> cases hs
  constructor <;> rfl

theorem frame_sendAimdRequest {msg : RequestItem} (hs : r.sendAimdRequest S cfg msg = some r') :
    r.Frame r' := by
  unfold sendAimdRequest at hs
  split at hs
  · split at hs <;> cases hs <;> constructor <;> rfl
  · cases hs

theorem frame_sendResult {d : Delivery} (hs : r.sendResult d = some r') : r.Frame r' := by
  unfold sendResult at hs
  split at hs <;> cases hs
  constructor <;> rfl

theorem frame_stepForward (hs : r.stepForward cfg = some r') : r.Frame r' := by
  unfold stepForward at hs
  split at hs
  · split at hs <;> cases hs
    constructor <;> rfl
  · exact { frame_sendResult hs with }
  · cases hs
  · cases hs

theorem frame_stepAsync {J : Type} [DecidableEq J] {j : J} {s s' : Shared J}
    (hs : r.stepAsync S cfg env j s = some (s', r')) : r.Frame r' := by
  unfold stepAsync at hs
  split at hs
  case h_5 | h_8 =>
    obtain ⟨hu, rfl⟩ := Run.of_unshared hs
    exact { frame_sendPreResult hu with }
  case h_2 | h_3 | h_6 => split at hs <;> cases hs <;> constructor <;> rfl
  all_goals
    cases hs <;> constructor <;> rfl

theorem frame_stepAimd {J : Type} {s s' : Shared J}
    (hs : r.stepAimd S cfg env s = some (s', r')) : r.Frame r' := by
  unfold stepAimd at hs
  split at hs
  case h_3 =>
    split at hs
    · cases hs <;> constructor <;> rfl
    · split at hs
      · cases hs <;> constructor <;> rfl
      · split at hs <;> cases hs <;> constructor <;> rfl
  case h_4 =>
    dsimp only at hs
    split at hs
    · cases hs <;> constructor <;> rfl
    · split at hs <;> cases hs <;> constructor <;> rfl
  case h_6 =>
    obtain ⟨hu, rfl⟩ := Run.of_unshared hs
    exact { frame_sendAimdRequest hu with }
  case h_7 =>
    obtain ⟨hu, rfl⟩ := Run.of_unshared hs
    exact { frame_sendPreResult hu with }
  case h_1 | h_2 | h_8 => split at hs <;> cases hs <;> constructor <;> rfl
  all_goals
    cases hs <;> constructor <;> rfl

theorem frame_stepRelease {J : Type} {s s' : Shared J}
    (hs : r.stepRelease cfg s = some (s', r')) : r.Frame r' := by
  unfold stepRelease at hs
  split at hs
  case h_1 => split at hs <;> cases hs <;> constructor <;> rfl
  case h_4 =>
    obtain ⟨hu, rfl⟩ := Run.of_unshared hs
    exact { frame_sendPreResult hu with }
  all_goals
    cases hs <;> constructor <;> rfl

theorem frame_stepDirect (hs : r.stepDirect = some r') : r.Frame r' := by
  unfold stepDirect at hs
  split at hs
  case h_2 => exact { frame_sendAimdResult hs with }
  case h_1 | h_3 => split at hs <;> cases hs <;> constructor <;> rfl
  all_goals cases hs

theorem frame_stepSubmit {k : Nat} (hs : r.stepSubmit S env k = some r') : r.Frame r' := by
  unfold stepSubmit at hs
  split at hs
  case h_3 => exact { frame_sendAimdResult hs with }
  all_goals
    cases hs <;> constructor <;> rfl

/-- The goroutines with a part in the store's use take the step, or they are left alone. -/
theorem main_or_frame {j : Fin S.jobs} {s s' : Shared (Fin S.jobs)} {g : Goroutine}
    (hs : S.stepRun env j s r g = some (s', r')) :
    r.stepJob S (S.config j) env ((S.config j).prepare S.lib (S.sink j)) = some r' ∨
    r.stepSource (S.config j) = some r' ∨ r.stepPre (S.config j) = some r' ∨
    r.stepDrain S (S.sink j) = some r' ∨ r.Frame r' := by
  cases g with
  | async => exact .inr (.inr (.inr (.inr (frame_stepAsync hs))))
  | aimd => exact .inr (.inr (.inr (.inr (frame_stepAimd hs))))
  | release => exact .inr (.inr (.inr (.inr (frame_stepRelease hs))))
  | job | source | pre | forward | direct | submit | drain =>
    obtain ⟨hu, rfl⟩ := Run.of_unshared hs
    first
    | exact .inl hu
    | exact .inr (.inl hu)
    | exact .inr (.inr (.inl hu))
    | exact .inr (.inr (.inr (.inl hu)))
    | exact .inr (.inr (.inr (.inr (frame_stepForward hu))))
    | exact .inr (.inr (.inr (.inr (frame_stepDirect hu))))
    | exact .inr (.inr (.inr (.inr (frame_stepSubmit hu))))

/-! ### Knowledge about the store -/

/-- The calls of the goroutines are safe, and what an execution starts from is true. -/
structure Sound (lib : Stdlib) (cfg : RunConfig) (sink : BatchResultStore) (w : World) (r : Run) :
    Prop where
  prepare : ∀ t, r.job = .prepare t → (dutiful lib).Safe (.prepare cfg) (Duty.Ready cfg) t w
  mark : ∀ msg t, r.pre = .mark msg t →
    (dutiful lib).Safe (.mark cfg msg.requestID) (Duty.Told msg.requestID true) t w
  checkpoint : ∀ d t, r.drain = .checkpoint d t →
    (dutiful lib).Safe (.checkpoint sink d.item) (Duty.Told d.item.requestID false) t w
  prepared : r.job = .build ∨ r.source ≠ .idle → Prepared cfg r.seed w

namespace Sound

variable {lib : Stdlib} {sink : BatchResultStore}

theorem initial : ({} : Run).Sound lib cfg sink w := by
  refine ⟨fun _ h => ?_, fun _ _ h => ?_, fun _ _ h => ?_, fun h => ?_⟩
  · cases h
  · cases h
  · cases h
  · rcases h with h | h
    · cases h
    · exact absurd rfl h

section

variable (h : r.Sound lib cfg sink w)
include h

theorem evolves (he : w.Evolves w') : r.Sound lib cfg sink w' :=
  ⟨fun t ht => (h.prepare t ht).rely he, fun m t ht => (h.mark m t ht).rely he,
    fun d t ht => (h.checkpoint d t ht).rely he, fun hp => (h.prepared hp).evolves he⟩

theorem of_frame (hf : r.Frame r') : r'.Sound lib cfg sink w := by
  obtain ⟨hjob, hseed, -, -, -, -, -, hsource, hpre, hdrain⟩ := hf
  refine ⟨?_, ?_, ?_, ?_⟩
  · rw [hjob]
    exact h.prepare
  · rw [hpre]
    exact h.mark
  · rw [hdrain]
    exact h.checkpoint
  · rw [hjob, hsource, hseed]
    exact h.prepared

/-- Cancelling a context leaves the goroutines where they are. -/
theorem cancel (cause : Cause) (ctx : Ctx) :
    (r.cancel cause ctx).Sound lib cfg sink w := by
  cases ctx <;> exact { h with }

theorem leave (err : Option Err) :
    (r.leave err).Sound lib cfg sink w := by
  cases err with
  | none => exact h
  | some e => exact { h.cancel .neutral .group with }

theorem sendRequest {msg : RequestItem} (hs : r.sendRequest msg = some r') :
    r'.Sound lib cfg sink w := by
  unfold Run.sendRequest at hs
  split at hs <;> cases hs
  · exact { h with mark := nofun }
  · exact { h with mark := nofun }
  · exact h

theorem sendPreRequest {msg : RequestItem} (hs : r.sendPreRequest cfg msg = some r') :
    r'.Sound lib cfg sink w := by
  unfold Run.sendPreRequest at hs
  split at hs <;> cases hs <;> exact { h with }

theorem stepSource (hs : r.stepSource cfg = some r') :
    r'.Sound lib cfg sink w := by
  have hset : ∀ pc, r.source ≠ .idle → { r with source := pc }.Sound lib cfg sink w :=
    fun pc hne => { h with prepared := fun _ => h.prepared (.inr hne) }
  unfold Run.stepSource at hs
  split at hs
  next hpc =>
    cases hs
    exact hset _ (by simp [hpc])
  next hpc =>
    split at hs
    · cases hs
      exact hset _ (by simp [hpc])
    split at hs
    · cases hs
      exact hset _ (by simp [hpc])
    · exact (hset _ (by simp [hpc])).sendRequest hs
  next hpc =>
    cases hs
    exact hset _ (by simp [hpc])
  next hpc => exact (hset _ (by simp [hpc])).sendRequest hs
  next hpc =>
    cases hs
    exact hset _ (by simp [hpc])
  next hpc =>
    cases hs
    exact hset _ (by simp [hpc])
  next hpc =>
    cases hs
    exact (hset _ (by simp [hpc])).leave _
  next => cases hs
  next => cases hs

end

theorem stepPre (hw : w.Counted) (h : r.Sound lib cfg sink w) (hs : r.stepPre cfg = some r') :
    r'.Sound lib cfg sink w := by
  -- Every other PC than a running fence can be set freely.
  have hset : ∀ pc, (∀ msg t, pc ≠ .mark msg t) → { r with pre := pc }.Sound lib cfg sink w :=
    fun pc hne => { h with mark := fun m t ht => absurd ht (hne m t) }
  unfold Run.stepPre at hs
  split at hs
  case h_4 msg hpc =>
    split at hs <;> cases hs
    · exact hset _ nofun
    · exact hset _ nofun
    · refine { h with mark := fun m t ht => ?_ }
      cases ht
      exact Duty.triple_markEntryInFlight cfg msg.requestID w hw trivial trivial
  case h_9 => exact (hset .range nofun).sendPreRequest hs
  case h_10 d draining _ =>
    exact (hset _ (by cases draining <;> nofun)).of_frame (frame_sendResult hs)
  case h_11 =>
    cases hs
    exact (hset .discard nofun).cancel _ _
  case h_1 | h_2 | h_3 | h_7 | h_12 =>
    split at hs <;> cases hs <;> exact hset _ nofun
  all_goals
    cases hs <;> exact hset _ nofun

theorem stepDrain (hw : w.Counted) (h : r.Sound S.lib cfg sink w)
    (hs : r.stepDrain S sink = some r') : r'.Sound S.lib cfg sink w := by
  have hset : ∀ pc, (∀ d t, pc ≠ .checkpoint d t) → { r with drain := pc }.Sound S.lib cfg sink w :=
    fun pc hne => { h with checkpoint := fun d t ht => absurd ht (hne d t) }
  unfold Run.stepDrain at hs
  split at hs
  case h_1 =>
    split at hs
    · cases hs
      exact { h with checkpoint := nofun }
    · split at hs <;> cases hs
      exact hset _ nofun
  case h_2 =>
    split at hs <;> cases hs
    next d _ _ =>
      refine { h with checkpoint := fun d' t ht => ?_ }
      cases ht
      exact Duty.triple_checkpointResult sink d.item w hw trivial trivial
    next => exact hset _ nofun
  case h_6 d committed _ =>
    cases hs
    exact { h with checkpoint := by cases committed <;> nofun }
  case h_7 =>
    cases hs
    exact { h with checkpoint := nofun }
  case h_9 e _ =>
    cases hs
    exact (hset (.range (some e)) nofun).cancel _ _
  case h_10 err _ =>
    cases hs
    exact (hset .done nofun).leave _
  all_goals
    cases hs <;> exact hset _ nofun

theorem stepJob (hc : r.Control cfg) (hw : w.Counted) (hsink : sink.epoch = cfg.epoch)
    (h : r.Sound S.lib cfg sink w)
    (hs : r.stepJob S cfg env (cfg.prepare S.lib sink) = some r') : r'.Sound S.lib cfg sink w := by
  have hset : ∀ pc, pc ≠ .build → (∀ t, pc ≠ .prepare t) →
      { r with job := pc }.Sound S.lib cfg sink w := fun pc hb hp =>
    { h with
      prepare := fun t ht => absurd ht (hp t)
      prepared := fun hor => h.prepared (.inr (hor.resolve_left hb)) }
  unfold Run.stepJob at hs
  split at hs
  case h_1 hpc =>
    cases hs
    refine { h with prepare := fun t ht => ?_, prepared := fun hor => ?_ }
    · cases ht
      exact Duty.triple_prepare cfg hsink w hw trivial trivial
    · exact h.prepared (.inr (hor.resolve_left nofun))
  case h_3 seed hpc =>
    cases hs
    have hready := h.prepare _ hpc w hw trivial (World.Evolves.refl w)
    exact { h with prepare := nofun, prepared := fun _ => hready }
  case h_5 hpc =>
    cases hs
    have hd := hc.dormant (by rw [hpc]; rfl)
    have hprep := h.prepared (.inl hpc)
    obtain ⟨e, he⟩ | ⟨pending, -, he⟩ := build_cases S cfg env r
    · rw [he]
      exact hset _ nofun nofun
    · rw [he]
      exact ⟨nofun, nofun, nofun, fun _ => hprep⟩
  case h_6 | h_8 => split at hs <;> cases hs <;> exact hset _ nofun nofun
  all_goals
    cases hs <;> exact hset _ nofun nofun

theorem stepRun {j : Fin S.jobs} {s s' : Shared (Fin S.jobs)} {g : Goroutine}
    (hc : r.Control (S.config j)) (hw : w.Counted)
    (h : r.Sound S.lib (S.config j) (S.sink j) w) (hs : S.stepRun env j s r g = some (s', r')) :
    r'.Sound S.lib (S.config j) (S.sink j) w := by
  rcases main_or_frame hs with hs | hs | hs | hs | hf
  · exact h.stepJob hc hw rfl hs
  · exact h.stepSource hs
  · exact h.stepPre hw hs
  · exact h.stepDrain hw hs
  · exact h.of_frame hf

/-- A call keeps to the duty of its goroutine and leaves the execution sound. -/
theorem awaits {slot : Slot} {c : Call} {k : c.Resp → Run} {env : Env} {a : c.Resp}
    (hw : w.Counted) (h : r.Sound lib cfg sink w) (hk : r.awaits slot = some ⟨c, k⟩)
    (hp : w.perform env c = some (w', a)) :
    w'.Counted ∧ (k a).Sound lib cfg sink w' ∧
    ((slot = .job ∧ (Duty.prepare cfg).Allows lib c) ∨
    (∃ msg t, slot = .pre ∧ r.pre = .mark msg t ∧ (Duty.mark cfg msg.requestID).Allows lib c) ∨
    ∃ d t, slot = .drain ∧ r.drain = .checkpoint d t ∧
      (Duty.checkpoint sink d.item).Allows lib c) := by
  have he : r.Sound lib cfg sink w' := h.evolves (World.evolves_perform hp)
  obtain ⟨t, hpc⟩ | ⟨msg, t, hpc⟩ | ⟨d, t, hpc⟩ := awaits_cases hk
  · obtain ⟨hi, hg, hs⟩ := h.prepare _ hpc w hw trivial (.refl w) env w' a trivial hp
    refine ⟨hi, { he with prepare := fun t ht => ?_, prepared := fun hor => ?_ }, .inl ⟨rfl, hg.1⟩⟩
    · cases ht
      exact hs
    · exact he.prepared (.inr (hor.resolve_left nofun))
  · obtain ⟨hi, hg, hs⟩ := h.mark _ _ hpc w hw trivial (.refl w) env w' a trivial hp
    refine ⟨hi, { he with mark := fun m t ht => ?_ }, .inr (.inl ⟨msg, _, rfl, hpc, hg.1⟩)⟩
    cases ht
    exact hs
  · obtain ⟨hi, hg, hs⟩ := h.checkpoint _ _ hpc w hw trivial (.refl w) env w' a trivial hp
    refine ⟨hi, { he with checkpoint := fun m t ht => ?_ }, .inr (.inr ⟨d, _, rfl, hpc, hg.1⟩)⟩
    cases ht
    exact hs

end Sound
end Run

/-! ### The whole system -/

variable {S : Setup} {h h' : Hub S} {e : Event S}

/-- The entries of every batch evolve. -/
theorem Setup.evolves_step (hs : S.step h e = some h') (i : Fin S.batches) :
    (h.worlds i).Evolves (h'.worlds i) := by
  have hupdate : ∀ i' w, (h.worlds i').Evolves w →
      (h.worlds i).Evolves (Function.update h.worlds i' w i) := by
    intro i' w he
    by_cases hi : i = i'
    · subst hi
      rwa [Function.update_self]
    · rw [Function.update_of_ne hi]
      exact .refl _
  obtain ⟨j, g, s, r, -, -⟩ | ⟨j, slot, c, k, w, a, -, -, hp⟩ | ⟨j, cause, -⟩ |
    ⟨b, -, hb⟩ | ⟨i', c, w, a, -, -, hp⟩ := S.step_cases hs
  · exact .refl _
  · exact hupdate _ _ (World.evolves_perform hp)
  · exact .refl _
  · obtain ⟨pc, rfl | ⟨d, j, js, r, -, -, -, rfl⟩⟩ := Hub.stepBroadcaster_cases hb <;> exact .refl _
  · exact hupdate _ _ (World.evolves_perform hp)

/-- Every execution is under control and sound. -/
structure Hub.Sound (h : Hub S) : Prop where
  counted : ∀ i, (h.worlds i).Counted
  control : ∀ j, (h.runs j).Control (S.config j)
  run : ∀ j, (h.runs j).Sound S.lib (S.config j) (S.sink j) (h.worlds (S.batch j))

/-- The batches are there, and nothing happened to them yet. -/
structure Hub.Initial (h : Hub S) : Prop where
  entries : ∀ i, (h.worlds i).batch.entries.rows = []
  runs : h.runs = fun _ => {}
  shared : h.shared = {}
  broadcasters : h.broadcasters = fun _ => .receive

theorem Hub.sample_initial (configs : List RunConfig) : (Hub.sample configs).Initial :=
  ⟨fun _ => rfl, rfl, rfl, rfl⟩

theorem Hub.Initial.sound (hi : h.Initial) : h.Sound where
  counted i row hr := by
    rw [hi.entries i] at hr
    cases hr
  control j := by
    rw [hi.runs]
    exact .initial
  run j := by
    rw [hi.runs]
    exact .initial

theorem Setup.sound_step (hs : S.step h e = some h') (hh : h.Sound) : h'.Sound := by
  have hev := S.evolves_step hs
  have hcontrol := S.control_step hs hh.control
  obtain ⟨j, g, s, r, -, hr⟩ | ⟨j, slot, c, k, w, a, -, hk, hp⟩ | ⟨j, cause, -⟩ |
    ⟨b, -, hb⟩ | ⟨i, c, w, a, -, hc, hp⟩ := S.step_cases hs
  · refine ⟨hh.counted, hcontrol, fun j' => ?_⟩
    dsimp only
    by_cases hj : j' = j
    · subst hj
      rw [Function.update_self]
      exact (hh.run j').stepRun (hh.control j') (hh.counted _) hr
    · rw [Function.update_of_ne hj]
      exact hh.run j'
  · obtain ⟨hw, hrun, -⟩ := (hh.run j).awaits (hh.counted _) hk hp
    refine ⟨fun i => ?_, hcontrol, fun j' => ?_⟩
    · dsimp only
      by_cases hi : i = S.batch j
      · subst hi
        rwa [Function.update_self]
      · rw [Function.update_of_ne hi]
        exact hh.counted i
    · by_cases hj : j' = j
      · subst hj
        dsimp only
        rwa [Function.update_self, Function.update_self]
      · have := (hh.run j').evolves (hev (S.batch j'))
        dsimp only at this ⊢
        rwa [Function.update_of_ne hj]
  · refine ⟨hh.counted, hcontrol, fun j' => ?_⟩
    dsimp only
    by_cases hj : j' = j
    · subst hj
      rw [Function.update_self]
      exact (hh.run j').cancel _ _
    · rw [Function.update_of_ne hj]
      exact hh.run j'
  · obtain ⟨pc, rfl | ⟨d, j, js, r, -, -, hr, rfl⟩⟩ := Hub.stepBroadcaster_cases hb
    · exact ⟨hh.counted, hcontrol, hh.run⟩
    · refine ⟨hh.counted, hcontrol, fun j' => ?_⟩
      simp only [Hub.setBroadcaster, Hub.setRun]
      by_cases hj : j' = j
      · subst hj
        rw [Function.update_self]
        exact (hh.run j').of_frame (Run.frame_sendPreResult hr)
      · rw [Function.update_of_ne hj]
        exact hh.run j'
  · refine ⟨fun i' => ?_, hcontrol, fun j' => (hh.run j').evolves (hev (S.batch j'))⟩
    dsimp only
    by_cases hi : i' = i
    · subst hi
      rw [Function.update_self]
      refine (hh.counted i').perform hp fun s hs => .inl ?_
      subst hs
      exact hc
    · rw [Function.update_of_ne hi]
      exact hh.counted i'

end BatchGateway
