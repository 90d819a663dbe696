import BatchGateway.Worker.Partition
import Mathlib.Data.List.Perm.Subperm

/-! The names of the plan files: every model gets a file of its own. -/
namespace BatchGateway

open GoJson

/-! ### The names of the plan files -/

theorem handedOut_cons (used : UsedNames) (a b : String) (n : Nat) :
    handedOut ((a, n) :: used) b = if b = a then n else handedOut used b := by
  unfold handedOut
  rw [List.lookup_cons]
  by_cases hab : b = a
  · simp [hab]
  · have hne : (b == a) = false := by simpa using hab
    simp [hab, hne]

variable {used : UsedNames} {name : String}

theorem mem_of_handedOut (h : handedOut used name ≠ 0) :
    name ∈ used.map Prod.fst := by
  by_contra hnot
  apply h
  have hnone : used.lookup name = none := by
    apply List.lookup_eq_none_iff.2
    intro p hp
    have hne : name ≠ p.1 := fun he => hnot (he ▸ List.mem_map_of_mem hp)
    simpa using hne
  simp [handedOut, hnone]

/-- The numbered name of a model. -/
def candidateName (base : String) (n : Nat) : String := base ++ "_" ++ toString n

theorem candidateName_ne (base : String) (n : Nat) : candidateName base n ≠ base := by
  intro h
  have hlen := congrArg (fun s : String => s.toList.length) h
  simp [candidateName] at hlen

variable {base : String}

theorem candidateName_inj {m n : Nat} (h : candidateName base m = candidateName base n) :
    m = n := by
  have hlist := congrArg String.toList h
  simp only [candidateName, String.toList_append, List.append_cancel_left_eq,
    Nat.toString_eq_repr, Nat.toList_repr] at hlist
  rw [← Nat.ofDigitChars_ten_toDigits (n := m), hlist, Nat.ofDigitChars_ten_toDigits]

/-- Among more numbered names than there are names in use one is free. -/
theorem exists_free (used : UsedNames) (base : String) (m : Nat) :
    ∃ k < used.length + 1, handedOut used (candidateName base (m + k)) = 0 := by
  by_contra hall
  have htaken : ∀ k < used.length + 1, handedOut used (candidateName base (m + k)) ≠ 0 :=
    fun k hk h => hall ⟨k, hk, h⟩
  have hnodup : ((List.range (used.length + 1)).map fun k => candidateName base (m + k)).Nodup := by
    apply List.Nodup.map _ List.nodup_range
    intro a b hab
    have := candidateName_inj hab
    omega
  have hsub : ((List.range (used.length + 1)).map fun k => candidateName base (m + k)) ⊆
      used.map Prod.fst := by
    intro name hname
    obtain ⟨k, hk, rfl⟩ := List.mem_map.1 hname
    exact mem_of_handedOut (htaken k (List.mem_range.1 hk))
  have hlen := (hnodup.subperm hsub).length_le
  rw [List.length_map, List.length_map, List.length_range] at hlen
  omega

/-- A name that is free, reserved afterwards; no other reservation is lost. -/
structure Reserves (used : UsedNames) (r : String × UsedNames) : Prop where
  free : handedOut used r.1 = 0
  reserved : handedOut r.2 r.1 ≠ 0
  kept : ∀ name, handedOut used name ≠ 0 → handedOut r.2 name ≠ 0

theorem reserves_cons (h : handedOut used name = 0) :
    Reserves used (name, (name, 1) :: used) := by
  refine ⟨h, ?_, fun other hother => ?_⟩
  · dsimp only
    rw [handedOut_cons, if_pos rfl]
    exact Nat.one_ne_zero
  · dsimp only
    rw [handedOut_cons]
    split
    · exact Nat.one_ne_zero
    · exact hother

/-- The names in use after one more number was tried. -/
def bumped (base : String) (used : UsedNames) : UsedNames := (base, handedOut used base + 1) :: used

theorem handedOut_bumped (base : String) (used : UsedNames) :
    handedOut (bumped base used) base = handedOut used base + 1 := by
  rw [bumped, handedOut_cons, if_pos rfl]

theorem handedOut_bumped_candidate (base : String) (used : UsedNames) (n : Nat) :
    handedOut (bumped base used) (candidateName base n) =
      handedOut used (candidateName base n) := by
  rw [bumped, handedOut_cons, if_neg (candidateName_ne base n)]

theorem handedOut_bumped_ne (h : handedOut used name ≠ 0) :
    handedOut (bumped base used) name ≠ 0 := by
  rw [bumped, handedOut_cons]
  split
  · exact Nat.succ_ne_zero _
  · exact h

/-- The loop of `internModelID` as it runs: it ends at the first numbered name that is free. -/
inductive InternLoop (base : String) : UsedNames → String × UsedNames → Prop
  | free {used : UsedNames} {candidate : String}
      (hcand : candidate = candidateName base (handedOut (bumped base used) base))
      (h : handedOut (bumped base used) candidate = 0) :
      InternLoop base used (candidate, (candidate, 1) :: bumped base used)
  | taken {used : UsedNames} {r : String × UsedNames}
      (h : handedOut (bumped base used)
        (candidateName base (handedOut (bumped base used) base)) ≠ 0)
      (rest : InternLoop base (bumped base used) r) : InternLoop base used r

theorem InternLoop.reserves {r : String × UsedNames} (h : InternLoop base used r) :
    Reserves used r := by
  induction h with
  | @free used candidate hcand h =>
    obtain ⟨-, hres, hkept⟩ := reserves_cons h
    refine ⟨?_, hres, fun name hname => hkept name (handedOut_bumped_ne hname)⟩
    by_contra hused
    exact handedOut_bumped_ne hused h
  | taken _ _ ih =>
    refine ⟨?_, ih.reserved, fun name hname => ih.kept name (handedOut_bumped_ne hname)⟩
    by_contra hused
    exact handedOut_bumped_ne hused ih.free

/-- The loop ends at a numbered name. -/
theorem InternLoop.candidate {r : String × UsedNames} (h : InternLoop base used r) :
    ∃ n, r.1 = candidateName base n := by
  induction h with
  | free hcand _ => exact ⟨_, hcand⟩
  | taken _ _ ih => exact ih

/-- The loop ends when a numbered name within the fuel is free. -/
theorem internLoop_runs {fuel : Nat}
    (hfree : ∃ k < fuel, handedOut used (candidateName base (handedOut used base + 1 + k)) = 0) :
    InternLoop base used (internLoop base fuel used) := by
  induction fuel generalizing used with
  | zero =>
    obtain ⟨k, hk, -⟩ := hfree
    cases hk
  | succ fuel ih =>
    obtain ⟨k, hk, hfree⟩ := hfree
    have hcand : base ++ "_" ++ toString (handedOut used base + 1) =
        candidateName base (handedOut (bumped base used) base) := by
      rw [handedOut_bumped]
      rfl
    unfold internLoop
    dsimp only
    split
    next hnew => exact .free hcand hnew
    next htaken =>
      -- the first name is taken, so that the free one is among those left
      have hk0 : k ≠ 0 := by
        rintro rfl
        apply htaken
        exact (handedOut_bumped_candidate base used _).trans hfree
      have hrest : ∃ k' < fuel, handedOut (bumped base used)
          (candidateName base (handedOut (bumped base used) base + 1 + k')) = 0 := by
        refine ⟨k - 1, by omega, ?_⟩
        have hidx : handedOut used base + 1 + 1 + (k - 1) = handedOut used base + 1 + k := by omega
        rw [handedOut_bumped_candidate, handedOut_bumped, hidx]
        exact hfree
      exact .taken (hcand ▸ htaken) (ih hrest)

/-- The sanitized name of a model. -/
def baseName (modelID : String) : String :=
  if String.ofList (sanitizeFrom false modelID.toList) = "" then "unknown"
  else String.ofList (sanitizeFrom false modelID.toList)

/-- A call of `internModelID` that returns. -/
inductive InternCall (modelID : String) (used : UsedNames) : String × UsedNames → Prop
  | base (h : handedOut used (baseName modelID) = 0) :
      InternCall modelID used (baseName modelID, (baseName modelID, 1) :: used)
  | loop {r : String × UsedNames} (h : handedOut used (baseName modelID) ≠ 0)
      (run : InternLoop (baseName modelID) used r) : InternCall modelID used r

/-- Every call returns. -/
theorem internModelID_returns (modelID : String) (used : UsedNames) :
    InternCall modelID used (internModelID modelID used) := by
  have hdef : internModelID modelID used =
      if handedOut used (baseName modelID) = 0 then (baseName modelID, (baseName modelID, 1) :: used)
      else internLoop (baseName modelID) (used.length + 1) used := rfl
  rw [hdef]
  by_cases hfree : handedOut used (baseName modelID) = 0
  · rw [if_pos hfree]
    exact .base hfree
  · rw [if_neg hfree]
    exact .loop hfree (internLoop_runs (exists_free used _ _))

/-- Every model gets a name that no other model has. -/
theorem internModelID_reserves (modelID : String) (used : UsedNames) :
    Reserves used (internModelID modelID used) := by
  have hcall := internModelID_returns modelID used
  generalize internModelID modelID used = r at hcall
  cases hcall with
  | base h => exact reserves_cons h
  | loop _ run => exact run.reserves

/-! ### What the names are made of -/

/-- A name without a character that separates the parts of a path. -/
def PathSafe (name : String) : Prop := ∀ separator ∈ ['/', '\\'], separator ∉ name.toList

theorem pathSafe_of_safe (h : ∀ c ∈ name.toList, isSafeChar c = true) :
    PathSafe name := by
  intro separator hsep hmem
  have hsafe := h separator hmem
  have hnone : ['/', '\\'].all (fun c => !isSafeChar c) = true := by decide
  have hbad := List.all_eq_true.1 hnone separator hsep
  simp [hsafe] at hbad

theorem isSafeChar_sanitizeFrom {inRun : Bool} {cs : List Char} :
    ∀ c ∈ sanitizeFrom inRun cs, isSafeChar c = true := by
  induction cs generalizing inRun with
  | nil => exact fun c hc => nomatch hc
  | cons d cs ih =>
    intro c hc
    unfold sanitizeFrom at hc
    split at hc
    next hd =>
      rcases List.mem_cons.1 hc with rfl | hc
      · exact hd
      · exact ih c hc
    · split at hc
      · exact ih c hc
      · rcases List.mem_cons.1 hc with rfl | hc
        · decide
        · exact ih c hc

theorem isSafeChar_baseName (modelID : String) :
    ∀ c ∈ (baseName modelID).toList, isSafeChar c = true := by
  unfold baseName
  split
  · have hall : "unknown".toList.all isSafeChar = true := by decide
    exact List.all_eq_true.1 hall
  · rw [String.toList_ofList]
    exact isSafeChar_sanitizeFrom

theorem isSafeChar_candidateName (h : ∀ c ∈ base.toList, isSafeChar c = true) (n : Nat) :
    ∀ c ∈ (candidateName base n).toList, isSafeChar c = true := by
  intro c hc
  simp only [candidateName, String.toList_append, List.mem_append, Nat.toString_eq_repr,
    Nat.toList_repr] at hc
  rcases hc with (hc | hc) | hc
  · exact h c hc
  · obtain rfl : c = '_' := by simpa using hc
    decide
  · have hdigit := Nat.isDigit_of_mem_toDigits (by decide) (by decide) hc
    simp [isSafeChar, Char.isAlphanum, hdigit]

theorem internModelID_pathSafe (modelID : String) (used : UsedNames) :
    PathSafe (internModelID modelID used).1 := by
  apply pathSafe_of_safe
  have hcall := internModelID_returns modelID used
  generalize internModelID modelID used = r at hcall
  cases hcall with
  | base h => exact isSafeChar_baseName modelID
  | loop _ run =>
    obtain ⟨n, hn⟩ := run.candidate
    rw [hn]
    exact isSafeChar_candidateName (isSafeChar_baseName modelID) n

/-! ### Sequences of models -/

/-- The names of a sequence of models, and the names in use after them. -/
def internAll : List String → UsedNames → List String × UsedNames
  | [], used => ([], used)
  | modelID :: ids, used =>
    let (name, used) := internModelID modelID used
    let (names, used) := internAll ids used
    (name :: names, used)

theorem internAll_snoc (ids : List String) (modelID : String) (used : UsedNames) :
    internAll (ids ++ [modelID]) used =
      ((internAll ids used).1 ++ [(internModelID modelID (internAll ids used).2).1],
        (internModelID modelID (internAll ids used).2).2) := by
  induction ids generalizing used with
  | nil => rfl
  | cons id ids ih => simp only [List.cons_append, internAll, ih]

theorem internAll_free {ids : List String} :
    ∀ name ∈ (internAll ids used).1, handedOut used name = 0 := by
  induction ids generalizing used with
  | nil => exact fun name h => nomatch h
  | cons modelID ids ih =>
    intro name hname
    have hres := internModelID_reserves modelID used
    rcases List.mem_cons.1 hname with rfl | hname
    · exact hres.free
    · by_contra hused
      exact hres.kept name hused (ih name hname)

theorem nodup_internAll (ids : List String) (used : UsedNames) : (internAll ids used).1.Nodup := by
  induction ids generalizing used with
  | nil => exact List.nodup_nil
  | cons modelID ids ih =>
    refine List.nodup_cons.2 ⟨fun hmem => ?_, ih _⟩
    exact (internModelID_reserves modelID used).reserved (internAll_free _ hmem)

theorem internAll_pathSafe {ids : List String} :
    ∀ name ∈ (internAll ids used).1, PathSafe name := by
  induction ids generalizing used with
  | nil => exact fun name h => nomatch h
  | cons modelID ids ih =>
    intro name hname
    rcases List.mem_cons.1 hname with rfl | hname
    · exact internModelID_pathSafe modelID used
    · exact ih name hname

/-! ### The names of an accumulator -/

/-- Under different keys a lookup finds exactly the pairs of the list. -/
theorem lookup_iff_mem {l : List (String × String)} (h : (l.map Prod.fst).Nodup) {a b : String} :
    l.lookup a = some b ↔ (a, b) ∈ l := by
  induction l with
  | nil => simp
  | cons p l ih =>
    obtain ⟨c, d⟩ := p
    rw [List.map_cons, List.nodup_cons] at h
    rw [List.lookup_cons, List.mem_cons]
    by_cases hac : a = c
    · subst hac
      have hnot : (a, b) ∉ l := fun hmem => h.1 (List.mem_map.2 ⟨_, hmem, rfl⟩)
      simp [hnot, eq_comm]
    · have hbeq : (a == c) = false := by simpa using hac
      simp [hbeq, hac, ih h.2]

namespace PlanAccumulator

/-- Every model has one name, interned in the order in which the models came. -/
structure Named (acc : PlanAccumulator) : Prop where
  models : (acc.modelToSafe.map Prod.fst).Nodup
  interned : internAll (acc.modelToSafe.map Prod.fst) [] = (acc.modelToSafe.map Prod.snd, acc.used)

variable {acc : PlanAccumulator}

/-- Every name belongs to one model. -/
theorem Named.names (h : acc.Named) : (acc.modelToSafe.map Prod.snd).Nodup := by
  have hnodup := nodup_internAll (acc.modelToSafe.map Prod.fst) []
  rwa [h.interned] at hnodup

theorem not_mem_models {modelID : String} (h : acc.modelToSafe.lookup modelID = none) :
    modelID ∉ acc.modelToSafe.map Prod.fst := by
  intro hmem
  obtain ⟨p, hp, rfl⟩ := List.mem_map.1 hmem
  simpa using List.lookup_eq_none_iff.1 h p hp

theorem Named.not_mem_names (h : acc.Named) (modelID : String) :
    (internModelID modelID acc.used).1 ∉ acc.modelToSafe.map Prod.snd := by
  have hnodup := nodup_internAll (acc.modelToSafe.map Prod.fst ++ [modelID]) []
  rw [internAll_snoc, h.interned] at hnodup
  exact fun hmem => (List.nodup_append'.1 hnodup).2.2 hmem (List.mem_singleton_self _)

theorem Named.safeName (h : acc.Named) (modelID : String) : (acc.safeName modelID).2.Named := by
  unfold PlanAccumulator.safeName
  cases hl : acc.modelToSafe.lookup modelID with
  | some safe => exact h
  | none =>
    have hmodel := not_mem_models hl
    constructor
    · rw [List.map_append]
      exact List.nodup_append'.2 ⟨h.models, List.nodup_singleton _, by simpa using hmodel⟩
    · simp only [List.map_append, List.map_cons, List.map_nil, internAll_snoc, h.interned]

theorem Named.accumulate (h : acc.Named) (modelID : String) (entry : PlanEntry) :
    (acc.accumulatePlanEntry modelID entry).Named :=
  have hsafe := h.safeName modelID
  ⟨hsafe.models, hsafe.interned⟩

/-- Planning a line names its model. -/
theorem mem_models_accumulate (acc : PlanAccumulator) (modelID : String) (entry : PlanEntry)
    (id : String) : id ∈ (acc.accumulatePlanEntry modelID entry).modelToSafe.map Prod.fst ↔
      id ∈ acc.modelToSafe.map Prod.fst ∨ modelID = id := by
  unfold accumulatePlanEntry PlanAccumulator.safeName
  cases hl : acc.modelToSafe.lookup modelID with
  | some safe =>
    obtain ⟨l₁, l₂, hsplit, -⟩ := List.lookup_eq_some_iff.1 hl
    refine ⟨.inl, fun h => h.elim (fun h => h) ?_⟩
    rintro rfl
    simp [append, hsplit]
  | none => simp [append, eq_comm]

/-- No plan is empty. -/
theorem accumulate_nonempty (h : ∀ p ∈ acc.modelToSafe, acc.entries p.2 ≠ []) (modelID : String)
    (e : PlanEntry) : ∀ p ∈ (acc.accumulatePlanEntry modelID e).modelToSafe,
      (acc.accumulatePlanEntry modelID e).entries p.2 ≠ [] := by
  unfold accumulatePlanEntry PlanAccumulator.safeName
  intro p hp
  cases hl : acc.modelToSafe.lookup modelID with
  | some safe =>
    simp only [hl, append] at hp ⊢
    split
    · simp
    · exact h p hp
  | none =>
    simp only [hl, append] at hp ⊢
    split
    · simp
    next hne =>
      rcases List.mem_append.1 hp with hp | hp
      · exact h p hp
      · obtain rfl := List.mem_singleton.1 hp
        exact absurd rfl hne

/-- The plan files by name, with their models. -/
theorem Named.safeToModel_eq (h : acc.Named) :
    acc.safeToModel = (acc.modelToSafe.map Prod.swap).reverse := by
  have hfold : ∀ (names m : List (String × String)), (names.map Prod.snd).Nodup →
      (∀ p ∈ names, p.2 ∉ m.map Prod.fst) →
      names.foldl (fun m p => (p.2, p.1) :: m.filter (·.1 ≠ p.2)) m =
        (names.map Prod.swap).reverse ++ m := by
    intro names
    induction names with
    | nil => exact fun m _ _ => rfl
    | cons p names ih =>
      intro m hnodup hnew
      rw [List.map_cons, List.nodup_cons] at hnodup
      have hall : m.filter (·.1 ≠ p.2) = m := by
        apply List.filter_eq_self.2
        intro q hq
        have hne : q.1 ≠ p.2 := fun he => hnew p List.mem_cons_self (he ▸ List.mem_map_of_mem hq)
        simpa using hne
      rw [List.foldl_cons, hall, ih _ hnodup.2]
      · rw [List.map_cons, List.reverse_cons, List.append_assoc]
        rfl
      · intro q hq hmem
        rw [List.map_cons, List.mem_cons] at hmem
        rcases hmem with he | hmem
        · have he' : q.2 = p.2 := he
          exact hnodup.1 (he' ▸ List.mem_map_of_mem hq)
        · exact hnew q (List.mem_cons_of_mem _ hq) hmem
  have := hfold acc.modelToSafe [] h.names (by simp)
  rwa [List.append_nil] at this

theorem Named.mem_safeToModel (h : acc.Named) {safe modelID : String} :
    (safe, modelID) ∈ acc.safeToModel ↔ (modelID, safe) ∈ acc.modelToSafe := by
  rw [h.safeToModel_eq, List.mem_reverse, List.mem_map]
  constructor
  · rintro ⟨p, hp, hswap⟩
    rw [← Prod.swap_swap p, hswap] at hp
    exact hp
  · exact fun hp => ⟨_, hp, rfl⟩

/-- The two maps are inverse to each other. -/
theorem Named.lookup_iff (h : acc.Named) (modelID safe : String) :
    acc.modelToSafe.lookup modelID = some safe ↔ acc.safeToModel.lookup safe = some modelID := by
  have hkeys : (acc.safeToModel.map Prod.fst).Nodup := by
    rw [h.safeToModel_eq, List.map_reverse, List.nodup_reverse, List.map_map]
    exact h.names
  rw [lookup_iff_mem h.models, lookup_iff_mem hkeys, h.mem_safeToModel]

end PlanAccumulator

variable {lib : Stdlib} {codec : Codec} {cfg : IngestConfig} {jobID : String}
  {cause : Int → Option Err} {st st' : Ingestion}

/-- The models of the accepted lines have names, and no plan is empty. -/
structure Ingestion.Names (cfg : IngestConfig) (infos : List LineMeta) (st : Ingestion) : Prop where
  named : st.plans.Named
  models : ∀ id, id ∈ st.plans.modelToSafe.map Prod.fst ↔
    ∃ info ∈ infos, cfg.registered info.modelID = true ∧ info.modelID = id
  nonempty : ∀ p ∈ st.plans.modelToSafe, st.plans.entries p.2 ≠ []

theorem Ingestion.names_start (cfg : IngestConfig) : Ingestion.Names cfg [] {} :=
  ⟨⟨List.nodup_nil, rfl⟩, by simp, by simp⟩

variable {infos before : List LineMeta}

theorem Ingestion.Names.line (h : st.Names cfg before) (line : Bytes) (info : LineMeta) :
    (lib.ingestLine cfg jobID st line info).Names cfg (before ++ [info]) := by
  rcases (ingestLine_cases lib cfg jobID st line info).2.2 with
    ⟨hreg, hplans, -⟩ | ⟨hreg, hplans, -⟩
  · exact ⟨hplans ▸ h.named, fun id => by simp [hplans, h.models id, hreg], hplans ▸ h.nonempty⟩
  · refine ⟨hplans ▸ h.named.accumulate _ _, fun id => ?_,
      hplans ▸ PlanAccumulator.accumulate_nonempty h.nonempty _ _⟩
    rw [hplans, PlanAccumulator.mem_models_accumulate, h.models id]
    simp [or_and_right, exists_or, hreg]

theorem Ingestion.Names.loop {lines : List Bytes} (h : st.Names cfg before)
    (hok : lib.preProcessLoop codec cfg jobID cause lines st = .ok st')
    (hall : List.Forall₂ (fun line info => extractAndValidateLine lib codec cfg line = .ok info)
      lines infos) : st'.Names cfg (before ++ infos) := by
  induction hall generalizing st before with
  | nil =>
    rw [preProcessLoop_nil hok, List.append_nil]
    exact h
  | @cons line info lines infos hinfo _ ih =>
    obtain ⟨info', hinfo', -, hok⟩ := preProcessLoop_cons hok
    cases hinfo.symm.trans hinfo'
    rw [List.append_cons]
    exact ih (h.line line info) hok

end BatchGateway
