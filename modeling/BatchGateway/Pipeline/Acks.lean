import BatchGateway.Pipeline.Provenance

/-! A leased delivery is acknowledged only once no entry awaits its result. Request IDs belong to one
batch, so the entry that was submitted is the only one with the ID. -/
namespace BatchGateway

open Interleaving

variable {S : Setup} {h h' : Hub S} {e : Event S}

/-! ### Request IDs belong to a batch -/

/-- No request ID occurs in the manifests of two batches. -/
def Setup.Scoped (S : Setup) : Prop :=
  ∀ j j', ∀ m ∈ (S.config j).manifest.entries, ∀ m' ∈ (S.config j').manifest.entries,
    m.requestID = m'.requestID → S.batch j = S.batch j'

/-- The request is a line of the batch's manifest. -/
def Setup.Lists (S : Setup) (i : Fin S.batches) (q : String) : Prop :=
  ∃ j, S.batch j = i ∧ ∃ m ∈ (S.config j).manifest.entries, m.requestID = q

variable {q : String}

theorem Setup.Scoped.batch_eq (hsc : S.Scoped) {i i' : Fin S.batches} (h : S.Lists i q)
    (h' : S.Lists i' q) : i = i' := by
  obtain ⟨j, rfl, m, hm, hq⟩ := h
  obtain ⟨j', rfl, m', hm', hq'⟩ := h'
  exact hsc j j' m hm m' hm' (hq.trans hq'.symm)

/-- Entries come from the manifest of their batch. -/
def Hub.Listed (h : Hub S) : Prop :=
  ∀ i, ∀ row ∈ (h.worlds i).batch.entries.rows, S.Lists i row.requestID

theorem Setup.listed_step (hs : S.step h e = some h') (hsound : h.Sound) (hh : h.Listed) :
    h'.Listed := by
  intro i row hr
  rcases S.row_step hs hsound hr with ⟨row₀, hr₀, hev⟩ | ⟨j, m, hj, hm, rfl⟩
  · rw [hev.requestID]
    exact hh i row₀ hr₀
  · exact ⟨j, hj, m, hm, m.activationEntry_requestID.symm⟩

/-! ### Acknowledgements -/

/-- Every entry with the request ID is finished, in every batch. -/
def Hub.Finished (h : Hub S) (q : String) : Prop :=
  ∀ i, ∀ row ∈ (h.worlds i).batch.entries.rows, row.requestID = q → row.status.isTerminal = true

theorem Hub.Listed.finished (hh : h.Listed) (hsc : S.Scoped) {i : Fin S.batches}
    (ht : HasTerminal q (h.worlds i)) : h.Finished q := by
  obtain ⟨row, hr, hq, ht⟩ := ht
  intro i' row' hr' hq'
  obtain rfl := hsc.batch_eq (hq ▸ hh i row hr) (hq' ▸ hh i' row' hr')
  rwa [EntryTable.eq_of_requestID hr' hr (hq'.trans hq.symm)]

/-- What a broadcaster is about to acknowledge is finished in some batch. -/
structure Hub.Settles (h : Hub S) : Prop where
  traced : h.Traced fun _ => True
  listed : h.Listed
  residue : ∀ b d, h.broadcasters b = .ack d → ∃ i, HasTerminal d.item.requestID (h.worlds i)

theorem Hub.Initial.settles (hi : h.Initial) : h.Settles where
  traced := hi.traced
  listed i row hr := by
    rw [hi.entries] at hr
    cases hr
  residue b d hb := by
    rw [hi.broadcasters] at hb
    cases hb

variable {good : GenerateResponse → Prop} {d : Delivery}

/-- Without an open entry, an entry that was submitted is finished. -/
theorem Hub.Traced.hasTerminal (hh : h.Traced good) {b : Nat}
    (hd : (h.broadcasters b).held = some d)
    (ho : h.hasOpenEntryByRequest d.item.requestID = false) :
    ∃ i, HasTerminal d.item.requestID (h.worlds i) := by
  obtain ⟨resp, -, hq, hitem, -⟩ := hh.held b d hd
  obtain ⟨i, row, hr, hid, -⟩ := hh.submitted _ hq
  have hid : row.requestID = d.item.requestID := by rw [hid, hitem, BodyCodec.asyncResult_requestID]
  refine ⟨i, row, hr, hid, ?_⟩
  by_contra hne
  have := of_decide_eq_false ho
  exact this ⟨i, row, hr, hid, by simpa [EntryRow.IsOpen] using hne⟩

theorem Setup.settles_step (hs : S.step h e = some h') (hh : h.Settles) : h'.Settles := by
  have hev := S.evolves_step hs
  have hkeep : ∀ {q}, (∃ i, HasTerminal q (h.worlds i)) → ∃ i, HasTerminal q (h'.worlds i) := by
    rintro q ⟨i, ht⟩
    exact ⟨i, ht.evolves (hev i)⟩
  refine ⟨S.traced_step hs (fun _ _ _ => trivial) hh.traced,
    S.listed_step hs hh.traced.sound hh.listed, fun b d hb => ?_⟩
  rcases S.broadcasters_step hs with heq | ⟨b', -, -, hstep⟩
  · rw [heq] at hb
    exact hkeep (hh.residue b d hb)
  · obtain ⟨pc, hpc, hcases⟩ := Hub.stepBroadcaster_held hstep
    rw [hpc] at hb
    by_cases hbb : b = b'
    · subst hbb
      rw [Function.update_self] at hb
      subst hb
      rcases hcases with ⟨-, -, -, hne⟩ | hheld
      · exact absurd rfl (hne d)
      · obtain ⟨hd, ho⟩ := hheld d rfl
        exact hkeep (hh.traced.hasTerminal hd (ho rfl))
    · rw [Function.update_of_ne hbb] at hb
      exact hkeep (hh.residue b d hb)

/-- The request whose leased delivery is about to be acknowledged. -/
def DrainPC.acks : DrainPC → Option String
  | .ack d => d.ack
  | _ => none

def BroadcasterPC.acks {J : Type} : BroadcasterPC J → Option String
  | .ack d => d.ack
  | _ => none

/-- The request whose leased delivery the step acknowledges: by `ResultCheckpointer.Drain`, or by a
`ResultBroadcaster` as residue. -/
def Hub.acks (h : Hub S) (e : Event S) : Option String :=
  match e.who with
  | .run j .drain => (h.runs j).drain.acks
  | .broadcaster b => (h.broadcasters b).acks
  | _ => none

theorem Delivery.Received.ack_eq {submitted : List String} (h : d.Received S good submitted)
    (hq : d.ack = some q) :
    q = d.item.requestID := by
  obtain ⟨resp, -, -, hitem, hack, -⟩ := h
  rw [hitem, BodyCodec.asyncResult_requestID]
  exact hack q hq

theorem Delivery.Taken.ack_eq {cfg : RunConfig} {submitted : List String}
    (h : d.Taken S good cfg submitted) (hq : d.ack = some q) : q = d.item.requestID := by
  cases h with
  | made h =>
    obtain ⟨msg, -, -, -, hnone⟩ := h
    cases hnone.symm.trans hq
  | failed h => exact h.ack_eq hq
  | answered h => exact h.ack_eq hq

theorem Hub.Settles.hasTerminal (hh : h.Settles) (hq : h.acks e = some q) :
    ∃ i, HasTerminal q (h.worlds i) := by
  unfold Hub.acks at hq
  split at hq
  next j hw =>
    cases hpc : (h.runs j).drain with
    | ack d =>
      rw [hpc] at hq
      have hknown : Token.Known .. :=
        hh.traced.tokens j (.settled d) (Run.mem_bag_of_drain (by simp [hpc, DrainPC.bag]))
      rw [hknown.1.ack_eq hq]
      exact ⟨_, hknown.2⟩
    | _ =>
      rw [hpc] at hq
      cases hq
  next b hw =>
    cases hpc : h.broadcasters b with
    | ack d =>
      rw [hpc] at hq
      rw [(hh.traced.held b d (by rw [hpc]; rfl)).ack_eq hq]
      exact hh.residue b d hpc
    | _ =>
      rw [hpc] at hq
      cases hq
  next => cases hq

/-- At every step of every run that acknowledges a leased delivery, every entry with its request ID
is finished. -/
theorem acked_requests_finished {h₀ : Hub S} (hsc : S.Scoped) (hi : h₀.Initial)
    (es : List (Event S)) :
    Along S.step (fun h e => ∀ q, h.acks e = some q → h.Finished q) h₀ es := by
  refine along_of_invariant (P := fun _ _ => True) (I := Hub.Settles)
    (fun h e h' hh _ hs => S.settles_step hs hh) (fun h e hh _ q hq => ?_)
    (along_true h₀ es) hi.settles
  obtain ⟨i, ht⟩ := hh.hasTerminal hq
  exact hh.listed.finished hsc ht

/-- An execution that hands its request to a queue. -/
def asyncJob : List RunConfig := [(RunConfig.sample "batch_1" "a").overQueue]

/-- The result of the request is committed and acknowledged; then it is delivered once more and
acknowledged as residue. -/
def deliverTwice : List (Event (.sample asyncJob)) :=
  Event.enqueue ⟨0, by decide⟩ ++ Event.deliver ⟨"a", [1], 200, "", ""⟩ ++
    Event.settle ⟨0, by decide⟩ ++ Event.deliver ⟨"a", [1], 200, "", ""⟩

theorem deliverTwice_finished :
    ((exec (Setup.sample asyncJob).step (.sample asyncJob) (deliverTwice.take 27)).bind fun h =>
      h.acks (.run ⟨0, by decide⟩ .drain)) = some "a" ∧
    ((exec (Setup.sample asyncJob).step (.sample asyncJob) (deliverTwice.take 32)).bind fun h =>
      h.acks ⟨.broadcaster 0, {}⟩) = some "a" ∧
    Along (Setup.sample asyncJob).step (fun h e => ∀ q, h.acks e = some q → h.Finished q)
      (.sample asyncJob) deliverTwice := by
  have hone : ∀ i i' : Fin (Setup.sample asyncJob).batches, i = i' := by decide
  exact ⟨by decide +kernel, by decide +kernel,
    acked_requests_finished (fun _ _ _ _ _ _ _ => hone _ _) ⟨fun _ => rfl, rfl, rfl, rfl⟩ _⟩

end BatchGateway
