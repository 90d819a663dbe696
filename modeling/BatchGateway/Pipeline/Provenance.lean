import BatchGateway.Pipeline.Outcome

/-! Where the requests and the results on their way come from. -/
namespace BatchGateway

open Interleaving

/-! ### Deliveries -/

/-- A received result knows its request by the ID only. -/
theorem BodyCodec.asyncResult_eq (bodies : BodyCodec) (resp : GenerateResponse) :
    ∃ response error, bodies.asyncResult resp = ⟨resp.requestID, "", response, error⟩ := by
  unfold asyncResult
  dsimp only
  generalize (if resp.statusCode = 0 then 200 else resp.statusCode) = statusCode
  split
  · exact ⟨_, _, rfl⟩
  · split
    · split <;> exact ⟨_, _, rfl⟩
    · split
      · exact ⟨_, _, rfl⟩
      · split <;> exact ⟨_, _, rfl⟩

@[simp] theorem BodyCodec.asyncResult_requestID (bodies : BodyCodec) (resp : GenerateResponse) :
    (bodies.asyncResult resp).requestID = resp.requestID := by
  obtain ⟨response, error, h⟩ := bodies.asyncResult_eq resp
  rw [h]

@[simp] theorem BodyCodec.asyncResult_customID (bodies : BodyCodec) (resp : GenerateResponse) :
    (bodies.asyncResult resp).customID = "" := by
  obtain ⟨response, error, h⟩ := bodies.asyncResult_eq resp
  rw [h]

/-- The result of a synchronous call carries the identity of its request. -/
theorem BodyCodec.buildResult_eq (bodies : BodyCodec) (m : RequestItem)
    (resp : Option GenerateResponse) (err : Option ClientError) :
    ∃ response error, bodies.buildResult m resp err =
      { item := ⟨m.requestID, m.customID, response, error⟩, modelID := m.modelID } := by
  unfold buildResult
  dsimp only
  split
  · split
    · exact ⟨_, _, rfl⟩
    · split <;> exact ⟨_, _, rfl⟩
  · exact ⟨_, _, rfl⟩
  · split
    · exact ⟨_, _, rfl⟩
    · split <;> exact ⟨_, _, rfl⟩

section Origins

variable (S : Setup) (good : GenerateResponse → Prop) (cfg : RunConfig) (submitted : List String)

/-- The delivery as a broadcaster received it, from one of the good responses. -/
def Delivery.Received (d : Delivery) : Prop :=
  ∃ resp, good resp ∧ resp.requestID ∈ submitted ∧ d.item = S.bodies.asyncResult resp ∧
    (∀ q ∈ d.ack, q = resp.requestID) ∧ d.synthetic = false

/-- The delivery was made by the execution itself, for one of its requests. -/
def Delivery.Made (d : Delivery) : Prop :=
  ∃ msg, .ok msg ∈ cfg.requests ∧ d.item.requestID = msg.requestID ∧
    d.item.customID = msg.customID ∧ d.ack = none

/-- What the checkpointer accepts: results that the execution made, and received ones for one of its
requests. A received failure does not get the custom ID of its request. -/
inductive Delivery.Taken : Delivery → Prop where
  | made {d : Delivery} (h : d.Made cfg) : Taken d
  | failed {d : Delivery} {msg : RequestItem} (h : d.Received S good submitted)
      (he : d.item.error.isSome) (hmsg : .ok msg ∈ cfg.requests)
      (hid : msg.requestID = d.item.requestID) : Taken d
  | answered {d : Delivery} {msg : RequestItem} (h : d.Received S good submitted)
      (he : d.item.error = none) (hmsg : .ok msg ∈ cfg.requests)
      (hid : msg.requestID = d.item.requestID) :
      Taken { d with item := { d.item with customID := msg.customID }, modelID := msg.modelID }

/-- What is known of a token. -/
def Token.Known (w : World) : Token → Prop
  | .unreadable => True
  | .fresh msg => .ok msg ∈ cfg.requests
  | .marked msg | .stored msg | .admitted msg =>
    .ok msg ∈ cfg.requests ∧ Attempted msg.requestID w
  | .answered d => d.Made cfg
  | .result d => d.Made cfg ∨ d.Received S good submitted
  | .accepted d => d.Taken S good cfg submitted
  | .settled d => d.Taken S good cfg submitted ∧ HasTerminal d.item.requestID w

end Origins

variable {S : Setup} {good : GenerateResponse → Prop} {cfg : RunConfig}
  {submitted submitted' : List String} {w w' : World}

theorem Delivery.Received.mono {d : Delivery} (h : d.Received S good submitted)
    (hs : submitted ⊆ submitted') : d.Received S good submitted' := by
  obtain ⟨resp, hg, hq, hitem, hack, hsyn⟩ := h
  exact ⟨resp, hg, hs hq, hitem, hack, hsyn⟩

theorem Delivery.Taken.mono {d : Delivery} (h : d.Taken S good cfg submitted)
    (hs : submitted ⊆ submitted') : d.Taken S good cfg submitted' := by
  cases h with
  | made h => exact .made h
  | failed h he hmsg hid => exact .failed (h.mono hs) he hmsg hid
  | answered h he hmsg hid => exact .answered (h.mono hs) he hmsg hid

theorem Token.Known.mono {t : Token} (h : t.Known S good cfg submitted w)
    (hs : submitted ⊆ submitted') (he : w.Evolves w') : t.Known S good cfg submitted' w' := by
  cases t with
  | unreadable => trivial
  | fresh msg => exact h
  | marked msg | stored msg | admitted msg => exact ⟨h.1, h.2.evolves he⟩
  | answered d => exact h
  | result d => exact h.imp_right fun h => h.mono hs
  | accepted d => exact Delivery.Taken.mono h hs
  | settled d => exact ⟨h.1.mono hs, h.2.evolves he⟩

theorem RequestItem.made_error {msg : RequestItem} (hmsg : .ok msg ∈ cfg.requests)
    (e : OutputError) : (msg.error e).Made cfg :=
  ⟨msg, hmsg, rfl, rfl, rfl⟩

theorem RequestItem.made_cancelled {msg : RequestItem} (hmsg : .ok msg ∈ cfg.requests)
    (cause : Option Cause) : (msg.cancelled cause).Made cfg :=
  ⟨msg, hmsg, rfl, rfl, rfl⟩

/-- What the pending requests make of a delivery. -/
theorem PendingRequests.enrich_cases {p : PendingRequests} {d d' : Delivery}
    (h : p.enrich d = some d') :
    (d' = d ∧ d.item.customID ≠ "") ∨
    (d' = d ∧ d.item.error.isSome ∧ ∃ msg ∈ p, msg.requestID = d.item.requestID) ∨
    (d.item.error = none ∧ d.item.customID = "" ∧ ∃ msg ∈ p, msg.requestID = d.item.requestID ∧
      d' = { d with item := { d.item with customID := msg.customID }, modelID := msg.modelID }) := by
  have hfind : ∀ {msg}, p.find d.item.requestID = some msg →
      msg ∈ p ∧ msg.requestID = d.item.requestID := by
    intro msg hm
    exact ⟨List.mem_of_find?_eq_some hm, by simpa using List.find?_some hm⟩
  unfold PendingRequests.enrich at h
  split at h
  next he =>
    split at h <;> cases h
    next hor =>
      rcases hor with hhas | hne
      · obtain ⟨msg, hm⟩ := Option.isSome_iff_exists.1 hhas
        exact .inr (.inl ⟨rfl, he, msg, hfind hm⟩)
      · exact .inl ⟨rfl, hne⟩
  next he =>
    split at h
    next hne =>
      cases h
      exact .inl ⟨rfl, hne⟩
    next hne =>
      obtain ⟨msg, hm, rfl⟩ := Option.map_eq_some_iff.1 h
      exact .inr (.inr ⟨by simpa using he, not_not.1 hne, msg, (hfind hm).1, (hfind hm).2, rfl⟩)

/-- Accepting a delivery. -/
theorem Delivery.taken_enrich {p : PendingRequests} {d d' : Delivery}
    (hp : ∀ msg ∈ p, .ok msg ∈ cfg.requests) (hd : d.Made cfg ∨ d.Received S good submitted)
    (h : p.enrich d = some d') : d'.Taken S good cfg submitted := by
  rcases PendingRequests.enrich_cases h with ⟨rfl, hne⟩ | ⟨rfl, he, msg, hm, hid⟩ |
    ⟨he, -, msg, hm, hid, rfl⟩
  · rcases hd with hd | ⟨resp, -, -, hitem, -, -⟩
    · exact .made hd
    · simp [hitem] at hne
  · rcases hd with hd | hd
    · exact .made hd
    · exact .failed hd he (hp msg hm) hid
  · rcases hd with ⟨msg₀, -, hid₀, -, hack⟩ | hd
    · exact .made ⟨msg, hp msg hm, hid.symm, rfl, hack⟩
    · exact .answered hd he (hp msg hm) hid

/-- One turn makes known tokens of known ones. -/
theorem Turn.known {sc : Scene} {x y : Multiset Token} {p p' : PendingRequests} {n n' : Nat}
    (h : Turn S sc x p n y p' n') (ha : ∀ d, sc.arrives d → d.Received S good submitted)
    (hx : ∀ t ∈ x, t.Known S good sc.cfg submitted sc.world)
    (hp : ∀ msg ∈ p, .ok msg ∈ sc.cfg.requests ∧ Attempted msg.requestID sc.world) :
    (∀ t ∈ y, t.Known S good sc.cfg submitted sc.world) ∧
    ∀ msg ∈ p', .ok msg ∈ sc.cfg.requests ∧ Attempted msg.requestID sc.world := by
  have hzero : ∀ t ∈ (0 : Multiset Token), t.Known S good sc.cfg submitted sc.world :=
    fun t ht => absurd ht (Multiset.notMem_zero t)
  have hone : ∀ {t : Token}, t.Known S good sc.cfg submitted sc.world →
      ∀ t' ∈ ({t} : Multiset Token), t'.Known S good sc.cfg submitted sc.world := by
    intro t ht t' hm
    rwa [Multiset.mem_singleton.1 hm]
  have hmem : ∀ {t : Token}, x = {t} → t.Known S good sc.cfg submitted sc.world :=
    fun hxt => hx _ (by simp [hxt])
  cases h with
  | stay | lose | drop | submit | ignore | ack => exact ⟨hzero, hp⟩
  | launch _ hpending =>
    refine ⟨fun t ht => ?_, hpending⟩
    obtain ⟨line, hl, rfl⟩ := mem_bagOf.1 ht
    cases line with
    | error e => trivial
    | ok msg => exact hl
  | cancelFresh => exact ⟨hone (.inl (RequestItem.made_cancelled (hmem rfl) _)), hp⟩
  | reject => exact ⟨hone (.inl (RequestItem.made_error (hmem rfl) _)), hp⟩
  | unfenced => exact ⟨hone (.inl (RequestItem.made_error (hmem rfl) _)), hp⟩
  | mark hm => exact ⟨hone ⟨hmem rfl, hm⟩, hp⟩
  | cancelMarked => exact ⟨hone (.inl (RequestItem.made_cancelled (hmem rfl).1 _)), hp⟩
  | unknown => exact ⟨hone (.inl (RequestItem.made_error (hmem rfl).1 _)), hp⟩
  | @store msg =>
    have hmsg := hmem (t := .marked msg) rfl
    refine ⟨hone hmsg, fun m hm => ?_⟩
    rcases List.mem_cons.1 hm with rfl | hm
    · exact hmsg
    · exact hp m (List.mem_filter.1 hm).1
  | unsubmitted => exact ⟨hone (.inl (RequestItem.made_error (hmem rfl).1 _)), hp⟩
  | collect =>
    refine ⟨fun t ht => ?_, nofun⟩
    obtain ⟨msg, hm, rfl⟩ := mem_bagOf.1 ht
    exact .inl (RequestItem.made_cancelled (hp msg hm).1 _)
  | @acquire msg => exact ⟨hone (hmem (t := .marked msg) rfl), hp⟩
  | @answer msg resp err =>
    refine ⟨hone ?_, hp⟩
    obtain ⟨response, error, he⟩ := S.bodies.buildResult_eq msg resp err
    rw [he]
    exact ⟨msg, (hmem rfl).1, rfl, rfl, rfl⟩
  | unanswered => exact ⟨hone (RequestItem.made_error (hmem rfl).1 _), hp⟩
  | overrule =>
    obtain ⟨msg, hmsg, hid, hcustom, hack⟩ := hmem rfl
    exact ⟨hone ⟨msg, hmsg, hid, hcustom, hack⟩, hp⟩
  | release => exact ⟨hone (.inl (hmem rfl)), hp⟩
  | receive hd => exact ⟨hone (.inr (ha _ hd)), hp⟩
  | accept hd => exact ⟨hone (Delivery.taken_enrich (fun m hm => (hp m hm).1) (hmem rfl) hd), hp⟩
  | settle ht => exact ⟨hone ⟨hmem rfl, ht⟩, hp⟩
  | resolve => exact ⟨hone (hmem rfl), fun m hm => hp m (List.mem_filter.1 hm).1⟩

/-! ### Broadcasters and queues -/

/-- The delivery that a broadcaster works on. -/
def BroadcasterPC.held {J : Type} : BroadcasterPC J → Option Delivery
  | .receive => none
  | .route d _ _ | .send d _ | .residue d | .ack d => some d

variable {h h' : Hub S} {e : Event S}

/-- A broadcaster receives a delivery or goes on with the one it holds. -/
theorem Hub.stepBroadcaster_held {env : Surroundings} {b : Nat}
    (hs : h.stepBroadcaster env b = some h') :
    ∃ pc, h'.broadcasters = Function.update h.broadcasters b pc ∧
      ((h.broadcasters b = .receive ∧ env.received.requestID ∈ h.shared.submitted ∧
        pc.held = some { item := S.bodies.asyncResult env.received
                         ack := if env.leased then some env.received.requestID else none } ∧
        ∀ d, pc ≠ .ack d) ∨
      ∀ d, pc.held = some d → (h.broadcasters b).held = some d ∧
        (pc = .ack d → h.hasOpenEntryByRequest d.item.requestID = false)) := by
  have hgo : ∀ {d : Delivery} {pc : BroadcasterPC (Fin S.jobs)}, (h.broadcasters b).held = some d →
      pc.held = some d → (∀ d', pc ≠ .ack d') → ∀ d', pc.held = some d' →
      (h.broadcasters b).held = some d' ∧
        (pc = .ack d' → h.hasOpenEntryByRequest d'.item.requestID = false) := by
    intro d pc hd hpc hne d' hd'
    cases hpc.symm.trans hd'
    exact ⟨hd, fun ha => absurd ha (hne d)⟩
  unfold Hub.stepBroadcaster at hs
  split at hs
  next hpc =>
    split at hs <;> cases hs
    next hq => exact ⟨_, rfl, .inl ⟨hpc, hq, rfl, nofun⟩⟩
  next hpc =>
    cases hs
    exact ⟨_, rfl, .inr (hgo (by rw [hpc]; rfl) rfl nofun)⟩
  next d hpc =>
    cases hs
    refine ⟨_, rfl, .inr fun d' hd' => ?_⟩
    split at hd'
    · cases hd'
      exact ⟨by rw [hpc]; rfl, by simp [*]⟩
    · cases hd'
  next hpc =>
    cases hs
    exact ⟨_, rfl, .inr (hgo (by rw [hpc]; rfl) rfl nofun)⟩
  next hpc =>
    split at hs
    · cases hs
      exact ⟨_, rfl, .inr (hgo (by rw [hpc]; rfl) rfl nofun)⟩
    · obtain ⟨r, -, rfl⟩ := Option.map_eq_some_iff.1 hs
      exact ⟨_, rfl, .inr (hgo (by rw [hpc]; rfl) rfl nofun)⟩
  next hpc =>
    cases hs
    exact ⟨_, rfl, .inr nofun⟩
  next d hpc =>
    split at hs
    next hopen =>
      cases hs
      refine ⟨_, rfl, .inr fun d' hd' => ?_⟩
      cases hd'
      exact ⟨by rw [hpc]; rfl, fun _ => hopen.2⟩
    next =>
      cases hs
      exact ⟨_, rfl, .inr nofun⟩
  next hpc =>
    cases hs
    exact ⟨_, rfl, .inr nofun⟩

/-- Broadcasters move by their own steps only. -/
theorem Setup.broadcasters_step (hs : S.step h e = some h') :
    h'.broadcasters = h.broadcasters ∨
    ∃ b, e.who = .broadcaster b ∧ h'.worlds = h.worlds ∧ h.stepBroadcaster e.env b = some h' := by
  obtain ⟨j, g, s, r, -, -⟩ | ⟨j, slot, c, k, w, a, -, -, -⟩ | ⟨j, cause, -⟩ |
    ⟨b, hw, hb⟩ | ⟨i, c, w, a, -, -, -⟩ := S.step_cases hs
  · exact .inl rfl
  · exact .inl rfl
  · exact .inl rfl
  · refine .inr ⟨b, hw, ?_, hb⟩
    obtain ⟨pc, rfl | ⟨d, j, js, r, -, -, -, rfl⟩⟩ := Hub.stepBroadcaster_cases hb <;> rfl
  · exact .inl rfl

section Queues

variable {env : Surroundings} {r r' : Run} {J : Type} {s s' : Shared J}

theorem Run.submitted_stepAsync [DecidableEq J] {j : J}
    (hs : r.stepAsync S cfg env j s = some (s', r')) :
    s'.submitted = s.submitted ∨
    ∃ msg, r.async = .submit msg ∧ s'.submitted = msg.requestID :: s.submitted := by
  unfold stepAsync at hs
  split at hs
  case h_4 msg hpc =>
    cases hs
    exact .inr ⟨msg, hpc, rfl⟩
  case h_5 | h_8 =>
    obtain ⟨-, rfl⟩ := Run.of_unshared hs
    exact .inl rfl
  case h_2 | h_3 | h_6 => split at hs <;> cases hs <;> exact .inl rfl
  all_goals
    cases hs <;> exact .inl rfl

theorem Run.submitted_stepAimd (hs : r.stepAimd S cfg env s = some (s', r')) :
    s'.submitted = s.submitted := by
  unfold stepAimd at hs
  split at hs
  case h_3 =>
    split at hs
    · cases hs
      rfl
    · split at hs
      · cases hs
        rfl
      · split at hs <;> cases hs
        rfl
  case h_4 =>
    dsimp only at hs
    split at hs
    · cases hs
      rfl
    · split at hs <;> cases hs
      rfl
  case h_5 =>
    cases hs
    split <;> rfl
  case h_6 | h_7 =>
    obtain ⟨-, rfl⟩ := Run.of_unshared hs
    rfl
  case h_1 | h_2 | h_8 =>
    split at hs <;> cases hs
    rfl
  all_goals cases hs

theorem Run.submitted_stepRelease (hs : r.stepRelease cfg s = some (s', r')) :
    s'.submitted = s.submitted := by
  unfold stepRelease at hs
  split at hs
  case h_2 =>
    cases hs
    split <;> rfl
  case h_4 =>
    obtain ⟨-, rfl⟩ := Run.of_unshared hs
    rfl
  case h_1 =>
    split at hs <;> cases hs
    rfl
  all_goals
    cases hs <;> rfl

end Queues

/-- Which requests are handed to a queue. -/
theorem Run.submitted_stepRun {env : Surroundings} {r r' : Run} {j : Fin S.jobs}
    {s s' : Shared (Fin S.jobs)} {g : Goroutine} (hs : S.stepRun env j s r g = some (s', r')) :
    s'.submitted = s.submitted ∨
    ∃ msg, r.async = .submit msg ∧ s'.submitted = msg.requestID :: s.submitted := by
  cases g with
  | async => exact submitted_stepAsync hs
  | aimd => exact .inl (submitted_stepAimd hs)
  | release => exact .inl (submitted_stepRelease hs)
  | job | source | pre | forward | direct | submit | drain =>
    obtain ⟨-, rfl⟩ := Run.of_unshared hs
    exact .inl rfl

theorem Setup.submitted_step (hs : S.step h e = some h') :
    h'.shared.submitted = h.shared.submitted ∨
    ∃ j msg, Token.stored msg ∈ (h.runs j).bag ∧
      h'.shared.submitted = msg.requestID :: h.shared.submitted := by
  obtain ⟨j, g, s, r, -, hr⟩ | ⟨j, slot, c, k, w, a, -, -, -⟩ | ⟨j, cause, -⟩ |
    ⟨b, -, hb⟩ | ⟨i, c, w, a, -, -, -⟩ := S.step_cases hs
  · rcases Run.submitted_stepRun hr with hr | ⟨msg, hpc, hr⟩
    · exact .inl hr
    · exact .inr ⟨j, msg, Run.mem_bag_of_async (by simp [hpc, AsyncPC.bag]), hr⟩
  · exact .inl rfl
  · exact .inl rfl
  · obtain ⟨pc, rfl | ⟨d, j, js, r, -, -, -, rfl⟩⟩ := Hub.stepBroadcaster_cases hb <;> exact .inl rfl
  · exact .inl rfl

theorem Setup.submitted_subset (hs : S.step h e = some h') :
    h.shared.submitted ⊆ h'.shared.submitted := by
  rcases S.submitted_step hs with hq | ⟨j, msg, -, hq⟩ <;> rw [hq]
  · exact List.Subset.refl _
  · exact List.subset_cons_self _ _

/-! ### The whole system -/

/-- Everything on its way is known, where broadcasters receive good responses. -/
structure Hub.Traced (good : GenerateResponse → Prop) (h : Hub S) : Prop where
  sound : h.Sound
  tokens : ∀ j, ∀ t ∈ (h.runs j).bag,
    t.Known S good (S.config j) h.shared.submitted (h.worlds (S.batch j))
  pending : ∀ j, ∀ msg ∈ (h.runs j).pending,
    .ok msg ∈ (S.config j).requests ∧ Attempted msg.requestID (h.worlds (S.batch j))
  held : ∀ b d, (h.broadcasters b).held = some d → d.Received S good h.shared.submitted
  submitted : ∀ q ∈ h.shared.submitted, ∃ i, Attempted q (h.worlds i)

/-- The response that a broadcaster receives at the step is good. -/
def Hub.Receives (good : GenerateResponse → Prop) (h : Hub S) (e : Event S) : Prop :=
  ∀ b, e.who = .broadcaster b → h.broadcasters b = .receive → good e.env.received

theorem Hub.Initial.traced (hi : h.Initial) : h.Traced good where
  sound := hi.sound
  tokens j := by
    rw [hi.runs]
    exact fun t ht => absurd ht (Multiset.notMem_zero t)
  pending j := by
    rw [hi.runs]
    exact nofun
  held b d hd := by
    rw [hi.broadcasters] at hd
    cases hd
  submitted := by
    rw [hi.shared]
    exact nofun

theorem Setup.traced_step (hs : S.step h e = some h') (hg : h.Receives good e)
    (hh : h.Traced good) : h'.Traced good := by
  have hsub := S.submitted_subset hs
  have hev := S.evolves_step hs
  have hknown : ∀ j, (∀ t ∈ (h'.runs j).bag,
      t.Known S good (S.config j) h.shared.submitted (h.worlds (S.batch j))) ∧
      ∀ msg ∈ (h'.runs j).pending,
        .ok msg ∈ (S.config j).requests ∧ Attempted msg.requestID (h.worlds (S.batch j)) := by
    intro j
    obtain ⟨x, y, ht, hx, hbag⟩ := (S.moves_step hs hh.sound j).turn
    have harrive : ∀ d, (h.scene e h' j).arrives d → d.Received S good h.shared.submitted := by
      rintro d ⟨b, js, hb⟩
      exact hh.held b d (by rw [hb]; rfl)
    obtain ⟨hy, hp⟩ := ht.known harrive (fun t ht => hh.tokens j t (hx t ht)) (hh.pending j)
    exact ⟨fun t ht => (hbag t ht).elim (hh.tokens j t) (hy t), hp⟩
  refine ⟨S.sound_step hs hh.sound, fun j t ht => ((hknown j).1 t ht).mono hsub (hev _),
    fun j msg hm => ?_, fun b d hd => ?_, fun q hq => ?_⟩
  · obtain ⟨hmsg, ha⟩ := (hknown j).2 msg hm
    exact ⟨hmsg, ha.evolves (hev _)⟩
  · rcases S.broadcasters_step hs with hb | ⟨b', hw, -, hb⟩
    · rw [hb] at hd
      exact (hh.held b d hd).mono hsub
    · obtain ⟨pc, hpc, hcases⟩ := Hub.stepBroadcaster_held hb
      rw [hpc] at hd
      by_cases hbb : b = b'
      · subst hbb
        rw [Function.update_self] at hd
        rcases hcases with ⟨hr, hq, hheld, -⟩ | hheld
        · cases hheld.symm.trans hd
          refine ⟨e.env.received, hg b hw hr, hsub hq, rfl, fun q hq => ?_, rfl⟩
          split at hq
          · exact (Option.some.inj hq).symm
          · cases hq
        · exact (hh.held b d (hheld d hd).1).mono hsub
      · rw [Function.update_of_ne hbb] at hd
        exact (hh.held b d hd).mono hsub
  · rcases S.submitted_step hs with hs' | ⟨j, msg, hm, hs'⟩
    · rw [hs'] at hq
      obtain ⟨i, hi⟩ := hh.submitted q hq
      exact ⟨i, hi.evolves (hev i)⟩
    · rw [hs'] at hq
      rcases List.mem_cons.1 hq with rfl | hq
      · exact ⟨S.batch j, (hh.tokens j _ hm).2.evolves (hev _)⟩
      · obtain ⟨i, hi⟩ := hh.submitted q hq
        exact ⟨i, hi.evolves (hev i)⟩

end BatchGateway
