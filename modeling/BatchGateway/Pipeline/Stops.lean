import BatchGateway.Pipeline.Provenance

/-! A stopped execution makes up failures for the requests it gives up. None of them is committed:
whatever stopped it also stopped the checkpointer. -/
namespace BatchGateway

open Interleaving

/-- The result that a token carries. -/
def Token.delivery : Token → Option Delivery
  | .answered d | .result d | .accepted d | .settled d => some d
  | _ => none

/-- Made-up results are there once the dispatch is stopped. -/
def Token.Genuine (cause : Option Cause) (t : Token) : Prop :=
  ∀ d ∈ t.delivery, d.synthetic = true → cause.isSome

theorem PendingRequests.enrich_synthetic {p : PendingRequests} {d d' : Delivery}
    (h : p.enrich d = some d') : d'.synthetic = d.synthetic := by
  rcases enrich_cases h with ⟨rfl, -⟩ | ⟨rfl, -⟩ | ⟨-, -, msg, -, -, rfl⟩ <;> rfl

theorem Turn.genuine {S : Setup} {sc : Scene} {x y : Multiset Token} {p p' : PendingRequests}
    {n n' : Nat} (h : Turn S sc x p n y p' n') (ha : ∀ d, sc.arrives d → d.synthetic = false)
    (hx : ∀ t ∈ x, t.Genuine sc.cause) : ∀ t ∈ y, t.Genuine sc.cause := by
  have hone : ∀ {t : Token}, t.Genuine sc.cause →
      ∀ t' ∈ ({t} : Multiset Token), t'.Genuine sc.cause := by
    intro t ht t' hm
    rwa [Multiset.mem_singleton.1 hm]
  have hnew : ∀ {t : Token}, (∀ d ∈ t.delivery, d.synthetic = false) →
      ∀ t' ∈ ({t} : Multiset Token), t'.Genuine sc.cause := by
    intro t ht
    refine hone fun d hd hs => ?_
    rw [ht d hd] at hs
    cases hs
  cases h with
  | stay | lose | drop | submit | ignore | ack => exact fun t ht => absurd ht (Multiset.notMem_zero t)
  | launch =>
    intro t ht
    obtain ⟨line, -, rfl⟩ := mem_bagOf.1 ht
    cases line <;> exact nofun
  | cancelFresh hc | cancelMarked hc | overrule hc => exact hone fun _ _ _ => hc
  | collect hc =>
    intro t ht
    obtain ⟨msg, hm, rfl⟩ := mem_bagOf.1 ht
    rcases hc with rfl | hc
    · cases hm
    · exact fun _ _ _ => hc
  | reject | unfenced | unknown | unsubmitted | unanswered =>
    exact hnew fun d hd => by cases hd; rfl
  | mark | store | acquire => exact hnew nofun
  | @answer msg resp err =>
    refine hnew fun d hd => ?_
    cases hd
    obtain ⟨response, error, he⟩ := S.bodies.buildResult_eq msg resp err
    rw [he]
  | receive hd =>
    refine hnew fun d hd' => ?_
    cases hd'
    exact ha _ hd
  | accept hd =>
    refine hone fun d' hd' hs => ?_
    cases hd'
    rw [PendingRequests.enrich_synthetic hd] at hs
    exact hx _ (Multiset.mem_singleton_self _) _ rfl hs
  | release | settle | resolve => exact hone fun d hd => hx _ (Multiset.mem_singleton_self _) d hd

variable {S : Setup} {h h' : Hub S} {e : Event S}

/-- Everything on its way is genuine unless the execution was stopped. -/
structure Hub.Genuine (h : Hub S) : Prop where
  traced : h.Traced fun _ => True
  tokens : ∀ j, ∀ t ∈ (h.runs j).bag, t.Genuine (h.runs j).dispatchCause

theorem Hub.Initial.genuine (hi : h.Initial) : h.Genuine where
  traced := hi.traced
  tokens j := by
    rw [hi.runs]
    exact fun t ht => absurd ht (Multiset.notMem_zero t)

theorem Setup.genuine_step (hs : S.step h e = some h') (hh : h.Genuine) : h'.Genuine := by
  refine ⟨S.traced_step hs (fun _ _ _ => trivial) hh.traced, fun j => ?_⟩
  obtain ⟨x, y, ht, hx, hbag⟩ := (S.moves_step hs hh.traced.sound j).turn
  have hold : ∀ t ∈ (h.runs j).bag, t.Genuine (h'.runs j).dispatchCause :=
    fun t ht d hd hsyn => S.dispatchCause_step hs (hh.tokens j t ht d hd hsyn)
  have harrive : ∀ d, (h.scene e h' j).arrives d → d.synthetic = false := by
    rintro d ⟨b, js, hb⟩
    obtain ⟨_, -, -, -, -, hsyn⟩ := hh.traced.held b d (by rw [hb]; rfl)
    exact hsyn
  have hy := ht.genuine harrive fun t ht => hold t (hx t ht)
  exact fun t hm => (hbag t hm).elim (hold t) (hy t)

/-- The step commits the result of a delivery to the entry, whose result is the line of the
delivery's item, while nothing has stopped the execution. -/
def Hub.CommitsResult (h : Hub S) (e : Event S) (i : Fin S.batches) (row₀ row : EntryRow)
    (d : Delivery) : Prop :=
  ∃ j t key, e.who = .call j .drain ∧ S.batch j = i ∧ (h.runs j).drain = .checkpoint d t ∧
    (h.runs j).jobCause = none ∧ (h.runs j).groupCause = none ∧ (h.runs j).dispatchCause = none ∧
    d.item.requestID = row.requestID ∧ row = row₀.commit e.env.now (S.lib.committed d.item key)

/-- An entry that the step finishes gets a result that was not made up. -/
def Hub.CommitsGenuine (h : Hub S) (e : Event S) : Prop :=
  ∀ h', S.step h e = some h' → ∀ i, ∀ row₀ ∈ (h.worlds i).batch.entries.rows,
    ∀ row ∈ (h'.worlds i).batch.entries.rows, row₀.requestID = row.requestID → row₀.IsOpen →
      row.status.isTerminal = true → ∃ d, h.CommitsResult e i row₀ row d ∧ d.synthetic = false

/-- At every step of every run: an entry that becomes finished was committed by an execution that
nothing had stopped yet, with a result for its request that was not made up. -/
theorem no_synthetic_commits {h₀ : Hub S} (hi : h₀.Initial) (es : List (Event S)) :
    Along S.step Hub.CommitsGenuine h₀ es := by
  refine along_of_invariant (P := fun _ _ => True) (I := Hub.Genuine)
    (fun h e h' hh _ hs => S.genuine_step hs hh) (fun h e hh _ h' hs i row₀ hr₀ row hr hid ho ht => ?_)
    (along_true h₀ es) hi.genuine
  obtain ⟨j, d, t, key, hw, hi, hpc, hg, -, hq, hrow⟩ :=
    S.commit_step hs hh.traced.sound hr ht hr₀ hid ho
  have hcontrol := hh.traced.sound.control j
  have hjob : (h.runs j).jobCause = none := by
    by_contra hne
    have := hcontrol.group (Option.isSome_iff_ne_none.2 hne)
    simp [hg] at this
  have hdispatch := hcontrol.dispatching hpc hg
  refine ⟨d, ⟨j, t, key, hw, hi, hpc, hjob, hg, hdispatch, hq, hrow⟩, ?_⟩
  by_contra hsyn
  have hmem : Token.accepted d ∈ (h.runs j).bag := Run.mem_bag_of_drain (by simp [hpc, DrainPC.bag])
  have := hh.tokens j _ hmem d rfl (by simpa using hsyn)
  simp [hdispatch] at this

/-- A job with two requests. -/
def stoppedJob : RunConfig :=
  { RunConfig.sample "batch_1" "a" with
    manifest := ⟨[{ requestID := "a", ordinal := 0, customID := "a" },
      { requestID := "b", ordinal := 1, customID := "b" }]⟩
    lineCount := 2
    requests := [.ok { requestID := "a", customID := "a", modelID := "m" },
      .ok { requestID := "b", customID := "b", modelID := "m" }] }

/-- The result of the first request is committed; then the processor shuts down, and the second
request gets a synthetic result, whose checkpoint fails. -/
def stoppedRun : List (Event (.sample [stoppedJob])) :=
  let j : Fin (Setup.sample [stoppedJob]).jobs := ⟨0, Nat.one_pos⟩
  Event.generate j ++ Event.answer j ++ (Event.finish j).take 5 ++ [⟨.abort j .shutdown, {}⟩] ++
    [.run j .pre, .run j .pre, .run j .drain, .run j .drain, .call j .drain, .call j .drain,
      .call j .drain]

/-- The result that the checkpointer is checkpointing was made up. -/
def DrainPC.synthetic : DrainPC → Bool
  | .checkpoint d _ => d.synthetic
  | _ => false

theorem stoppedRun_commits :
    ((exec (Setup.sample [stoppedJob]).step (.sample [stoppedJob]) stoppedRun).map fun h =>
      ((h.runs (0 : Fin 1)).drain.synthetic,
        (h.worlds (0 : Fin 1)).batch.entries.rows.map EntryRow.status)) =
      some (true, [.completed, .pending]) ∧
    Along (Setup.sample [stoppedJob]).step Hub.CommitsGenuine (.sample [stoppedJob]) stoppedRun :=
  ⟨by decide +kernel, no_synthetic_commits (Hub.sample_initial _) _⟩

end BatchGateway
