import BatchGateway.Worker.PlanNames
import BatchGateway.Worker.Planner

/-! What ingestion leaves on disk: the plan files and the rejected lines divide the lines of the
local input file among them. -/
namespace BatchGateway

open GoJson

/-! ### The lines of the local input file -/

/-- A line of the local input file: where it starts, its bytes and what was validated. -/
structure InputLine where
  offset : Int
  bytes : Bytes
  info : LineMeta

namespace InputLine

/-- The plan entry of the line. -/
def entry (l : InputLine) : PlanEntry := ⟨l.offset, UInt32.ofNat l.bytes.length, l.info.prefixHash⟩

/-- The place of the line in the file. -/
def span (l : InputLine) : Int × Nat := (l.offset, l.bytes.length)

end InputLine

def PlanEntry.span (e : PlanEntry) : Int × Nat := (e.offset, e.length.toNat)

theorem InputLine.entry_span {l : InputLine} (h : l.bytes.length < 2 ^ 32) :
    l.entry.span = l.span := by
  rw [PlanEntry.span, InputLine.span, InputLine.entry, toNat_length h]

/-- Lines that stand one after the other, the first one at the given offset. -/
def inputLines : Int → List (Bytes × LineMeta) → List InputLine
  | _, [] => []
  | offset, (line, info) :: rest =>
    ⟨offset, line, info⟩ :: inputLines (offset + line.length) rest

theorem map_bytes_inputLines (offset : Int) (ls : List (Bytes × LineMeta)) :
    (inputLines offset ls).map InputLine.bytes = ls.map Prod.fst := by
  induction ls generalizing offset with
  | nil => rfl
  | cons p ls ih => simp [inputLines, ih]

theorem map_info_inputLines (offset : Int) (ls : List (Bytes × LineMeta)) :
    (inputLines offset ls).map InputLine.info = ls.map Prod.snd := by
  induction ls generalizing offset with
  | nil => rfl
  | cons p ls ih => simp [inputLines, ih]

theorem inputLines_snoc (offset : Int) (ls : List (Bytes × LineMeta)) (line : Bytes)
    (info : LineMeta) : inputLines offset (ls ++ [(line, info)]) =
      inputLines offset ls ++ [⟨offset + (ls.map Prod.fst).flatten.length, line, info⟩] := by
  induction ls generalizing offset with
  | nil => simp [inputLines]
  | cons p ls ih =>
    obtain ⟨line', info'⟩ := p
    have hoffset : offset + (line'.length : Int) + (ls.map Prod.fst).flatten.length =
        offset + ((line' ++ (ls.map Prod.fst).flatten).length : Nat) := by
      rw [List.length_append]
      omega
    rw [List.cons_append, inputLines, ih, inputLines, hoffset]
    rfl

variable {ls : List (Bytes × LineMeta)}

/-- A line is found at its offset. -/
theorem readAt_inputLines (start : Bytes) {l : InputLine} (h : l ∈ inputLines start.length ls) :
    readAt (start ++ (ls.map Prod.fst).flatten) l.offset l.bytes.length = some l.bytes ∧
      0 ≤ l.offset ∧ l.offset ≤ (start ++ (ls.map Prod.fst).flatten).length := by
  induction ls generalizing start with
  | nil => cases h
  | cons p ls ih =>
    obtain ⟨line, info⟩ := p
    rw [List.map_cons, List.flatten_cons, ← List.append_assoc]
    rcases List.mem_cons.1 h with rfl | h
    · refine ⟨readAt_append _ (readAt_end start line), by simp, ?_⟩
      simp only [List.length_append]
      omega
    · apply ih
      rw [List.length_append]
      simpa using h

theorem validated_inputLines {lib : Stdlib} {codec : Codec} {cfg : IngestConfig}
    {lines : List Bytes} {infos : List LineMeta} {offset : Int}
    (h : List.Forall₂ (fun line info => extractAndValidateLine lib codec cfg line = .ok info)
      lines infos) :
    ∀ l ∈ inputLines offset (lines.zip infos),
      extractAndValidateLine lib codec cfg l.bytes = .ok l.info := by
  induction h generalizing offset with
  | nil => exact fun l hl => nomatch hl
  | cons hline _ ih =>
    intro l hl
    rcases List.mem_cons.1 hl with rfl | hl
    · exact hline
    · exact ih l hl

/-! ### The plans under construction -/

/-- The plans hold exactly these lines, each under its model. -/
structure PlanAccumulator.Holds (acc : PlanAccumulator) (ls : List InputLine) : Prop
    extends acc.Named where
  unused : ∀ name, name ∉ acc.modelToSafe.map Prod.snd → acc.entries name = []
  entries : ∀ p ∈ acc.modelToSafe,
    acc.entries p.2 = (ls.filter (·.info.modelID = p.1)).map InputLine.entry
  covered : ∀ l ∈ ls, l.info.modelID ∈ acc.modelToSafe.map Prod.fst

namespace PlanAccumulator

variable {acc : PlanAccumulator} {ls : List InputLine}

/-- A model that is looked up has a name afterwards, and the plans are the same. -/
theorem Holds.safeName (h : acc.Holds ls) (modelID : String) :
    (acc.safeName modelID).2.Holds ls ∧
      (modelID, (acc.safeName modelID).1) ∈ (acc.safeName modelID).2.modelToSafe := by
  have hnamed := h.toNamed.safeName modelID
  revert hnamed
  unfold PlanAccumulator.safeName
  cases hl : acc.modelToSafe.lookup modelID with
  | some safe =>
    obtain ⟨l₁, l₂, hsplit, -⟩ := List.lookup_eq_some_iff.1 hl
    refine fun _ => ⟨h, ?_⟩
    dsimp only
    rw [hsplit]
    exact List.mem_append_right _ List.mem_cons_self
  | none =>
    intro hnamed
    have hmodel := not_mem_models hl
    have hname := h.not_mem_names modelID
    refine ⟨⟨hnamed, ?_, ?_, ?_⟩,
      List.mem_append_right _ (List.mem_singleton_self _)⟩
    · intro name hnot
      rw [List.map_append, List.mem_append] at hnot
      exact h.unused name fun hmem => hnot (.inl hmem)
    · intro p hp
      rcases List.mem_append.1 hp with hp | hp
      · exact h.entries p hp
      · obtain rfl := List.mem_singleton.1 hp
        have hnone : ls.filter (·.info.modelID = modelID) = [] := by
          apply List.filter_eq_nil_iff.2
          intro l hl hmodelID
          exact hmodel (of_decide_eq_true hmodelID ▸ h.covered l hl)
        dsimp only
        rw [hnone, h.unused _ hname]
        rfl
    · intro l hl
      rw [List.map_append]
      exact List.mem_append_left _ (h.covered l hl)

/-- An entry that is appended to the plan of its model is held there. -/
theorem Holds.append (h : acc.Holds ls) {l : InputLine} {safe : String}
    (hsafe : (l.info.modelID, safe) ∈ acc.modelToSafe) :
    (acc.append safe l.entry).Holds (ls ++ [l]) := by
  refine ⟨⟨h.models, h.interned⟩, fun name hname => ?_, fun p hp => ?_, fun x hx => ?_⟩
  · have hne : name ≠ safe := by
      rintro rfl
      exact hname (List.mem_map_of_mem hsafe)
    dsimp only [PlanAccumulator.append]
    rw [if_neg hne]
    exact h.unused name hname
  · dsimp only [PlanAccumulator.append]
    rw [List.filter_append, List.map_append, ← h.entries p hp]
    by_cases hp2 : p.2 = safe
    · have hpe : p = (l.info.modelID, safe) := List.inj_on_of_nodup_map h.names hp hsafe hp2
      simp [hpe]
    · have hp1 : l.info.modelID ≠ p.1 := by
        intro he
        have hpe : p = (l.info.modelID, safe) := List.inj_on_of_nodup_map h.models hp hsafe he.symm
        exact hp2 (congrArg Prod.snd hpe)
      simp [hp2, hp1]
  · rcases List.mem_append.1 hx with hx | hx
    · exact h.covered x hx
    · obtain rfl := List.mem_singleton.1 hx
      exact List.mem_map_of_mem hsafe

theorem Holds.accumulate (h : acc.Holds ls) (l : InputLine) :
    (acc.accumulatePlanEntry l.info.modelID l.entry).Holds (ls ++ [l]) := by
  obtain ⟨hacc, hsafe⟩ := h.safeName l.info.modelID
  exact hacc.append hsafe

theorem planFile_perm (acc : PlanAccumulator) (safe : String) :
    (acc.planFile safe).Perm (acc.entries safe) :=
  List.perm_insertionSort ..

theorem planFile_sorted (acc : PlanAccumulator) (safe : String) :
    (acc.planFile safe).Pairwise (·.prefixHash ≤ ·.prefixHash) := by
  have : Std.Total (α := PlanEntry) (·.prefixHash ≤ ·.prefixHash) :=
    ⟨fun a b => UInt32.le_total a.prefixHash b.prefixHash⟩
  have : IsTrans PlanEntry (·.prefixHash ≤ ·.prefixHash) := ⟨fun _ _ _ => UInt32.le_trans⟩
  exact List.pairwise_insertionSort ..

end PlanAccumulator

/-- Values grouped by a key, group after group. -/
theorem perm_flatMap_filter {α β : Type} [DecidableEq β] (f : α → β) {keys : List β}
    (hkeys : keys.Nodup) {l : List α} (h : ∀ a ∈ l, f a ∈ keys) :
    (keys.flatMap fun k => l.filter (f · = k)).Perm l := by
  induction keys generalizing l with
  | nil =>
    cases l with
    | nil => rfl
    | cons a l => cases h a List.mem_cons_self
  | cons k keys ih =>
    rw [List.nodup_cons] at hkeys
    have hrest : ∀ a ∈ l.filter (fun a => !decide (f a = k)), f a ∈ keys := by
      intro a ha
      rw [List.mem_filter] at ha
      have hne : f a ≠ k := by simpa using ha.2
      exact (List.mem_cons.1 (h a ha.1)).resolve_left hne
    have hsame : (keys.flatMap fun k' => l.filter (f · = k')) =
        keys.flatMap fun k' => (l.filter fun a => !decide (f a = k)).filter (f · = k') := by
      apply List.flatMap_congr
      intro k' hk'
      rw [List.filter_filter]
      apply List.filter_congr
      intro a _
      by_cases ha : f a = k'
      · have hne : k' ≠ k := fun he => hkeys.1 (he ▸ hk')
        simp [ha, hne]
      · simp [ha]
    rw [List.flatMap_cons, hsame]
    exact ((ih hkeys.2 hrest).append_left _).trans (List.filter_append_perm _ l)

namespace PlanAccumulator

variable {acc : PlanAccumulator} {ls : List InputLine}

/-- The plan files together hold every line once. -/
theorem Holds.perm (h : acc.Holds ls) :
    (acc.safeToModel.flatMap fun p => acc.planFile p.1).Perm (ls.map InputLine.entry) := by
  have hgroups : (acc.modelToSafe.flatMap fun p => acc.entries p.2) =
      ((acc.modelToSafe.map Prod.fst).flatMap fun k => ls.filter (·.info.modelID = k)).map
        InputLine.entry := by
    rw [List.map_flatMap, List.flatMap_map]
    exact List.flatMap_congr fun p hp => h.entries p hp
  have hsorted : (acc.safeToModel.flatMap fun p => acc.planFile p.1).Perm
      (acc.safeToModel.flatMap fun p => acc.entries p.1) :=
    List.Perm.flatMap_left _ fun p _ => acc.planFile_perm p.1
  have hnames : (acc.safeToModel.flatMap fun p => acc.entries p.1).Perm
      (acc.modelToSafe.flatMap fun p => acc.entries p.2) := by
    rw [h.safeToModel_eq]
    refine (List.Perm.flatMap_right _ (List.reverse_perm _)).trans ?_
    rw [List.flatMap_map]
    rfl
  have hlines : (acc.modelToSafe.flatMap fun p => acc.entries p.2).Perm
      (ls.map InputLine.entry) := by
    rw [hgroups]
    exact (perm_flatMap_filter _ h.models h.covered).map _
  exact hsorted.trans (hnames.trans hlines)

end PlanAccumulator

/-! ### The loop over the lines -/

variable {lib : Stdlib} {codec : Codec} {cfg : IngestConfig} {jobID : String}
  {cause : Int → Option Err} {st st' : Ingestion}

/-- The lines of a batch whose models some gateway serves. -/
def acceptedLines (cfg : IngestConfig) (ls : List InputLine) : List InputLine :=
  ls.filter fun l => cfg.registered l.info.modelID

def rejectedLines (cfg : IngestConfig) (ls : List InputLine) : List InputLine :=
  ls.filter fun l => !cfg.registered l.info.modelID

theorem acceptedLines_snoc (cfg : IngestConfig) (ls : List InputLine) (l : InputLine) :
    acceptedLines cfg (ls ++ [l]) =
      acceptedLines cfg ls ++ if cfg.registered l.info.modelID then [l] else [] := by
  rw [acceptedLines, List.filter_append]
  by_cases hreg : cfg.registered l.info.modelID = true
  · simp [acceptedLines, hreg]
  · simp [acceptedLines, hreg]

/-- The state of the loop after these lines. -/
structure Ingestion.After (cfg : IngestConfig) (ls : List (Bytes × LineMeta)) (st : Ingestion) :
    Prop where
  input : st.input = (ls.map Prod.fst).flatten
  offset : st.offset = st.input.length
  plans : st.plans.Holds (acceptedLines cfg (inputLines 0 ls))

theorem Ingestion.after_start (cfg : IngestConfig) : Ingestion.After cfg [] {} := by
  refine ⟨rfl, rfl, ⟨⟨List.nodup_nil, rfl⟩, fun _ _ => rfl, ?_, ?_⟩⟩ <;>
  · intro p hp
    cases hp

/-- One line that fits its plan entry. -/
theorem Ingestion.After.line (h : st.After cfg ls) {line : Bytes} {info : LineMeta}
    (hlen : line.length < 2 ^ 32) :
    (lib.ingestLine cfg jobID st line info).After cfg (ls ++ [(line, info)]) := by
  obtain ⟨hin, -, hcases⟩ := ingestLine_cases lib cfg jobID st line info
  have hinput : (lib.ingestLine cfg jobID st line info).input =
      ((ls ++ [(line, info)]).map Prod.fst).flatten := by
    rw [hin, h.input]
    simp
  have hlines : inputLines 0 (ls ++ [(line, info)]) =
      inputLines 0 ls ++ [⟨st.offset, line, info⟩] := by
    rw [inputLines_snoc, h.offset, h.input]
    simp
  rcases hcases with ⟨hreg, hplans, hoffset⟩ | ⟨hreg, hplans, hoffset⟩
  · refine ⟨hinput, ?_, ?_⟩
    · rw [hoffset, hin, h.offset, List.length_append]
      omega
    · rw [hplans, hlines, acceptedLines_snoc, if_neg (by simp [hreg]), List.append_nil]
      exact h.plans
  · refine ⟨hinput, ?_, ?_⟩
    · rw [hoffset, hin, h.offset, toNat_length hlen, List.length_append]
      omega
    · rw [hplans, hlines, acceptedLines_snoc, if_pos hreg]
      exact h.plans.accumulate ⟨st.offset, line, info⟩

theorem Ingestion.After.loop {lines : List Bytes} {infos : List LineMeta} (h : st.After cfg ls)
    (hok : lib.preProcessLoop codec cfg jobID cause lines st = .ok st')
    (hall : List.Forall₂ (fun line info => extractAndValidateLine lib codec cfg line = .ok info)
      lines infos) (hlen : ∀ line ∈ lines, line.length < 2 ^ 32) :
    st'.After cfg (ls ++ lines.zip infos) := by
  induction hall generalizing st ls with
  | nil =>
    rw [preProcessLoop_nil hok, List.zip_nil_left, List.append_nil]
    exact h
  | @cons line info lines infos hinfo hall ih =>
    obtain ⟨info', hinfo', -, hok⟩ := preProcessLoop_cons hok
    cases hinfo.symm.trans hinfo'
    have hline : (lib.ingestLine cfg jobID st line info).After cfg (ls ++ [(line, info)]) :=
      h.line (hlen line List.mem_cons_self)
    have hrest := ih hline hok fun l hl => hlen l (List.mem_cons_of_mem _ hl)
    rwa [List.append_assoc] at hrest

/-! ### The files -/

variable {disk : LocalDisk}

theorem LocalDisk.write_ok {what : String} {data written : Bytes}
    (h : disk.write what data = .ok written) :
    written = data ∧ data.length ≤ disk.maxFileSize := by
  unfold LocalDisk.write at h
  split at h
  · cases h
    exact ⟨rfl, ‹_›⟩
  · cases h

/-- Every plan file is written once. -/
theorem PlanAccumulator.finalize_lookup {acc : PlanAccumulator} {names : List String}
    {files out : List (String × Bytes)} (h : acc.finalize disk names files = .ok out)
    (hnames : names.Nodup) (hne : ∀ name ∈ names, acc.entries name ≠ []) (name : String) :
    out.lookup name = if name ∈ names then
      some ((acc.planFile name).flatMap PlanEntry.marshalBinary) else files.lookup name := by
  induction names generalizing files with
  | nil =>
    cases h
    simp
  | cons safe names ih =>
    rw [finalize, if_neg (hne safe List.mem_cons_self)] at h
    rw [List.nodup_cons] at hnames
    split at h
    · cases h
    next data hdata =>
      rw [ih h hnames.2 fun n hn => hne n (List.mem_cons_of_mem _ hn), (LocalDisk.write_ok hdata).1]
      by_cases hname : name = safe
      · simp [hname, hnames.1]
      · have hbeq : (name == safe) = false := by simpa using hname
        simp [hname, List.lookup_cons, hbeq]

/-- One file for each name. -/
theorem PlanAccumulator.finalize_names {acc : PlanAccumulator} {names : List String}
    {files out : List (String × Bytes)} (h : acc.finalize disk names files = .ok out)
    (hne : ∀ name ∈ names, acc.entries name ≠ []) :
    out.map Prod.fst = names.reverse ++ files.map Prod.fst := by
  induction names generalizing files with
  | nil =>
    cases h
    rfl
  | cons safe names ih =>
    rw [finalize, if_neg (hne safe List.mem_cons_self)] at h
    split at h
    · cases h
    · rw [ih h fun n hn => hne n (List.mem_cons_of_mem _ hn)]
      simp

variable {p : String × String}

theorem PlanAccumulator.finalizePlanFiles_lookup {acc : PlanAccumulator}
    {out : List (String × Bytes)} (hacc : acc.Named)
    (hne : ∀ p ∈ acc.modelToSafe, acc.entries p.2 ≠ []) (h : acc.finalizePlanFiles disk = .ok out)
    (hp : p ∈ acc.modelToSafe) :
    out.lookup p.2 = some ((acc.planFile p.2).flatMap PlanEntry.marshalBinary) := by
  have hperm : ((acc.modelToSafe.map Prod.snd).insertionSort (· ≤ ·)).Perm
      (acc.modelToSafe.map Prod.snd) := List.perm_insertionSort ..
  have hentries : ∀ name ∈ (acc.modelToSafe.map Prod.snd).insertionSort (· ≤ ·),
      acc.entries name ≠ [] := by
    intro name hname
    obtain ⟨q, hq, rfl⟩ := List.mem_map.1 (hperm.mem_iff.1 hname)
    exact hne q hq
  rw [finalize_lookup h (hperm.nodup_iff.2 hacc.names) hentries, if_pos]
  exact hperm.mem_iff.2 (List.mem_map_of_mem hp)

variable {input : Bytes} {files : JobFiles}

/-- What a successful ingestion returns and leaves on disk. -/
theorem preProcessFiles_ok {manifest : RequestManifest}
    (h : lib.preProcessFiles codec cfg disk jobID cause input = .ok (manifest, files)) :
    ∃ st, lib.preProcessJob codec cfg jobID cause input = .ok st ∧
      manifest.entries = st.entries ∧ files.input = st.input ∧
      st.input.length ≤ disk.maxFileSize ∧
      st.plans.finalizePlanFiles disk = .ok files.plans ∧
      files.modelMap =
        ⟨st.plans.modelToSafe, st.plans.safeToModel, st.lineCount, st.rejectedCount⟩ := by
  unfold Stdlib.preProcessFiles at h
  split at h
  · cases h
  next st hst =>
    split at h
    · cases h
    next copied hcopied =>
      split at h
      · cases h
      next plans hplans =>
        cases h
        obtain ⟨rfl, hsize⟩ := LocalDisk.write_ok hcopied
        exact ⟨st, hst, rfl, rfl, hsize, hplans, rfl⟩

/-- Every line ends with its only newline. -/
theorem normalizedLines_newline {start line : Bytes} (hstart : 10 ∉ start)
    (h : line ∈ normalizedLines start input) : ∃ text, line = text ++ newline ∧ 10 ∉ text := by
  induction input generalizing start with
  | nil =>
    unfold normalizedLines at h
    split at h
    · cases h
    · exact ⟨start, List.mem_singleton.1 h, hstart⟩
  | cons b input ih =>
    unfold normalizedLines at h
    split at h
    · rcases List.mem_cons.1 h with rfl | h
      · exact ⟨start, rfl, hstart⟩
      · exact ih List.not_mem_nil h
    next hb =>
      refine ih ?_ h
      simp [hstart, Ne.symm hb]

/-- The manifest and the files of a job divide the lines among them. -/
structure JobFiles.Partitions (lib : Stdlib) (codec : Codec) (cfg : IngestConfig) (jobID : String)
    (lines : List InputLine) (manifest : RequestManifest) (files : JobFiles) : Prop where
  /-- The lines stand one after the other in the local input file. -/
  placed : lines = inputLines 0 (lines.map fun l => (l.bytes, l.info))
  input : files.input = (lines.map InputLine.bytes).flatten
  newline : ∀ l ∈ lines, ∃ text, l.bytes = text ++ newline ∧ 10 ∉ text
  validated : ∀ l ∈ lines, extractAndValidateLine lib codec cfg l.bytes = .ok l.info
  ordinals : manifest.entries.map ManifestEntry.ordinal = (List.range lines.length).map Int.ofNat
  requestIDs : (manifest.entries.map ManifestEntry.requestID).Nodup
  manifest : List.Forall₂ (fun l m => m.customID = l.info.customID ∧
    m.requestID = lib.stableBatchRequestID jobID l.info.customID ∧
    m.rejected = !cfg.registered l.info.modelID) lines manifest.entries
  models : (files.modelMap.safeToModel.map Prod.snd).Nodup
  covered : ∀ l ∈ acceptedLines cfg lines, l.info.modelID ∈ files.modelMap.safeToModel.map Prod.snd
  /-- A plan file has the entries of its model's lines, sorted; each leads to its line. -/
  plan : ∀ p ∈ files.modelMap.safeToModel, ∃ es ls, files.readPlanEntries p.1 = .ok es ∧
    es.Pairwise (·.prefixHash ≤ ·.prefixHash) ∧
    ls.Perm ((acceptedLines cfg lines).filter (·.info.modelID = p.2)) ∧
    List.Forall₂ (fun e l => e = l.entry ∧
      readAt files.input e.offset e.length.toNat = some l.bytes) es ls
  partition : ∃ plans, List.Forall₂ (fun p es => files.readPlanEntries p.1 = .ok es)
      files.modelMap.safeToModel plans ∧
    (plans.flatten.map PlanEntry.span ++ (rejectedLines cfg lines).map InputLine.span).Perm
      (lines.map InputLine.span)
  lineCount : files.modelMap.lineCount = lines.length
  rejectedCount : files.modelMap.rejectedCount = (rejectedLines cfg lines).length

/-! ### The manifest of the lines -/

section Manifest

variable {registered : String → Bool} {lines : List InputLine} {manifest : RequestManifest}

theorem ingest_forall₂ (h : lib.ingest jobID registered (lines.map (·.info.toRequestMeta)) =
      .ok manifest) :
    List.Forall₂ (fun l m => m.customID = l.info.customID ∧
      m.requestID = lib.stableBatchRequestID jobID l.info.customID ∧
      m.rejected = !registered l.info.modelID) lines manifest.entries := by
  rw [(Stdlib.ingestLoop_ok (Stdlib.ingestLoop_of_ingest h)).1]
  apply List.forall₂_iff_get.2
  refine ⟨by simp, fun i h₁ h₂ => ?_⟩
  simp only [List.get_eq_getElem, List.getElem_mapIdx, List.getElem_map]
  exact ⟨Stdlib.manifestEntry_customID .., Stdlib.manifestEntry_requestID ..,
    Stdlib.manifestEntry_rejected ..⟩

theorem ingest_ordinals (h : lib.ingest jobID registered (lines.map (·.info.toRequestMeta)) =
      .ok manifest) :
    manifest.entries.map ManifestEntry.ordinal = (List.range lines.length).map Int.ofNat := by
  rw [(Stdlib.ingestLoop_ok (Stdlib.ingestLoop_of_ingest h)).1]
  apply List.ext_getElem
  · simp
  · intro i h₁ h₂
    simp [Stdlib.manifestEntry_ordinal]

/-- Different custom IDs have different request IDs. -/
theorem stableBatchRequestID_inj (hinj : Function.Injective lib.uuidSHA1) {a b : String}
    (h : lib.stableBatchRequestID jobID a = lib.stableBatchRequestID jobID b) : a = b := by
  unfold Stdlib.stableBatchRequestID newBatchRequestID at h
  have huuid := hinj (String.append_right_inj _ |>.1 h)
  exact String.append_right_inj _ |>.1 huuid

theorem ingest_requestIDs (hinj : Function.Injective lib.uuidSHA1)
    (h : lib.ingest jobID registered (lines.map (·.info.toRequestMeta)) = .ok manifest) :
    (manifest.entries.map ManifestEntry.requestID).Nodup := by
  obtain ⟨hentries, hnodup, -⟩ := Stdlib.ingestLoop_ok (Stdlib.ingestLoop_of_ingest h)
  have hids : manifest.entries.map ManifestEntry.requestID =
      ((lines.map (·.info.toRequestMeta)).map RequestMeta.customID).map
        (lib.stableBatchRequestID jobID) := by
    rw [hentries]
    apply List.ext_getElem
    · simp
    · intro i h₁ h₂
      simp [Stdlib.manifestEntry_requestID]
  rw [hids]
  exact hnodup.map fun a b hab => stableBatchRequestID_inj hinj hab

theorem countP_rejected {es : List ManifestEntry}
    (h : List.Forall₂ (fun l m => m.rejected = !cfg.registered l.info.modelID) lines es) :
    es.countP ManifestEntry.rejected = (rejectedLines cfg lines).length := by
  induction h with
  | nil => rfl
  | @cons l m lines es hm _ ih =>
    rw [List.countP_cons, ih, hm, rejectedLines, rejectedLines, List.filter_cons]
    split <;> simp

end Manifest

/-! ### The partition -/

/-- The plan file of a model is read back as its entries, sorted. -/
theorem readPlanEntries_planFile (hst : st.After cfg ls)
    (hne : ∀ p ∈ st.plans.modelToSafe, st.plans.entries p.2 ≠ [])
    (hsize : st.input.length ≤ disk.maxFileSize)
    (hplans : st.plans.finalizePlanFiles disk = .ok files.plans) (hp : p ∈ st.plans.safeToModel) :
    files.readPlanEntries p.1 = .ok (st.plans.planFile p.1) := by
  have hmem := hst.plans.mem_safeToModel.1 hp
  have hlookup := PlanAccumulator.finalizePlanFiles_lookup hst.plans.toNamed hne hplans hmem
  apply JobFiles.readPlanEntries_flatMap hlookup
  intro e he
  rw [PlanAccumulator.mem_planFile, hst.plans.entries _ hmem] at he
  obtain ⟨l, hl, rfl⟩ := List.mem_map.1 he
  have hline : l ∈ inputLines 0 ls := List.mem_of_mem_filter (List.mem_of_mem_filter hl)
  obtain ⟨-, h₀, hle⟩ := readAt_inputLines [] hline
  rw [List.nil_append, ← hst.input] at hle
  have hfits := disk.fits
  refine ⟨h₀, ?_⟩
  show l.offset < 2 ^ 63
  omega

/-- Planned and rejected lines together are all lines. -/
theorem Ingestion.After.partition (h : st.After cfg ls)
    (hlen : ∀ l ∈ inputLines 0 ls, l.bytes.length < 2 ^ 32) :
    ((st.plans.safeToModel.flatMap fun p => st.plans.planFile p.1).map PlanEntry.span ++
      (rejectedLines cfg (inputLines 0 ls)).map InputLine.span).Perm
        ((inputLines 0 ls).map InputLine.span) := by
  have hperm := h.plans.perm.map PlanEntry.span
  have hspans : ((acceptedLines cfg (inputLines 0 ls)).map InputLine.entry).map PlanEntry.span =
      (acceptedLines cfg (inputLines 0 ls)).map InputLine.span := by
    rw [List.map_map]
    apply List.map_congr_left
    intro l hl
    exact InputLine.entry_span (hlen l (List.mem_of_mem_filter hl))
  rw [hspans] at hperm
  apply (hperm.append_right _).trans
  rw [← List.map_append]
  exact (List.filter_append_perm _ _).map _

/-- The entries of a plan file lead to the lines they were made for. -/
theorem Ingestion.After.plan (h : st.After cfg ls)
    (hlen : ∀ l ∈ inputLines 0 ls, l.bytes.length < 2 ^ 32) (hp : p ∈ st.plans.safeToModel) :
    ∃ sorted : List InputLine,
      sorted.Perm ((acceptedLines cfg (inputLines 0 ls)).filter (·.info.modelID = p.2)) ∧
      List.Forall₂ (fun e l => e = l.entry ∧
        readAt st.input e.offset e.length.toNat = some l.bytes) (st.plans.planFile p.1) sorted := by
  have hentries := h.plans.entries _ (h.plans.mem_safeToModel.1 hp)
  generalize hmine : (acceptedLines cfg (inputLines 0 ls)).filter (·.info.modelID = p.2) = mine
    at hentries
  have hperm : (mine.insertionSort (·.info.prefixHash ≤ ·.info.prefixHash)).Perm mine :=
    List.perm_insertionSort ..
  have hfile : st.plans.planFile p.1 =
      (mine.insertionSort (·.info.prefixHash ≤ ·.info.prefixHash)).map InputLine.entry := by
    rw [PlanAccumulator.planFile, hentries]
    exact (List.map_insertionSort (fun a b : InputLine => a.info.prefixHash ≤ b.info.prefixHash)
      (fun a b : PlanEntry => a.prefixHash ≤ b.prefixHash) InputLine.entry mine
      fun _ _ _ _ => Iff.rfl).symm
  refine ⟨_, hperm, ?_⟩
  rw [hfile, List.forall₂_map_left_iff]
  apply List.forall₂_same.2
  intro l hl
  have hmem : l ∈ mine := hperm.mem_iff.1 hl
  rw [← hmine] at hmem
  have hline : l ∈ inputLines 0 ls := List.mem_of_mem_filter (List.mem_of_mem_filter hmem)
  have hat := (readAt_inputLines [] hline).1
  rw [List.nil_append, ← h.input] at hat
  have hlength : l.entry.length.toNat = l.bytes.length := toNat_length (hlen l hline)
  rw [hlength]
  exact ⟨rfl, hat⟩

/-- The files of a successful ingestion partition its validated lines. -/
theorem preProcessFiles_partitions {manifest : RequestManifest}
    (hinj : Function.Injective lib.uuidSHA1)
    (hok : lib.preProcessFiles codec cfg disk jobID cause input = .ok (manifest, files))
    (hlen : ∀ line ∈ normalizedLines [] input, line.length < 2 ^ 32) :
    ∃ infos, List.Forall₂ (fun line info => extractAndValidateLine lib codec cfg line = .ok info)
        (normalizedLines [] input) infos ∧
      files.Partitions lib codec cfg jobID (inputLines 0 ((normalizedLines [] input).zip infos))
        manifest := by
  obtain ⟨st, hst, hentries, hinput, hsize, hplans, hmap⟩ := preProcessFiles_ok hok
  obtain ⟨infos, hall, hingest, -, -, hcount, hrejected⟩ := preProcessJob_manifest hst
  have hnames := (Ingestion.names_start cfg).loop hst hall
  have hafter := (Ingestion.after_start cfg).loop hst hall hlen
  rw [List.nil_append] at hafter
  have hbytes := map_bytes_inputLines 0 ((normalizedLines [] input).zip infos)
  have hinfos := map_info_inputLines 0 ((normalizedLines [] input).zip infos)
  rw [List.map_fst_zip hall.length_eq.le] at hbytes
  rw [List.map_snd_zip hall.length_eq.ge] at hinfos
  have hshort : ∀ l ∈ inputLines 0 ((normalizedLines [] input).zip infos),
      l.bytes.length < 2 ^ 32 :=
    fun l hl => hlen _ (hbytes ▸ List.mem_map_of_mem hl)
  have hmanifest : lib.ingest jobID cfg.registered
      ((inputLines 0 ((normalizedLines [] input).zip infos)).map (·.info.toRequestMeta)) =
        .ok manifest := by
    have hmeta : (inputLines 0 ((normalizedLines [] input).zip infos)).map
        (·.info.toRequestMeta) = infos.map LineMeta.toRequestMeta := by
      nth_rewrite 2 [← hinfos]
      rw [List.map_map]
      rfl
    rw [hmeta, hingest, ← hentries]
  have hfor := ingest_forall₂ hmanifest
  have hsafe : files.modelMap.safeToModel = st.plans.safeToModel := by rw [hmap]
  have hread : ∀ p ∈ st.plans.safeToModel,
      files.readPlanEntries p.1 = .ok (st.plans.planFile p.1) :=
    fun p hp => readPlanEntries_planFile hafter hnames.nonempty hsize hplans hp
  refine ⟨infos, hall, ?_, ?_, ?_, ?_, ingest_ordinals hmanifest, ingest_requestIDs hinj hmanifest,
    hfor, ?_, ?_, ?_, ?_, ?_, ?_⟩
  · rw [← List.zip_map', hbytes, hinfos]
  · rw [hinput, hafter.input, hbytes, List.map_fst_zip hall.length_eq.le]
  · intro l hl
    exact normalizedLines_newline List.not_mem_nil (hbytes ▸ List.mem_map_of_mem hl)
  · exact validated_inputLines hall
  · rw [hsafe, hafter.plans.safeToModel_eq, List.map_reverse, List.nodup_reverse, List.map_map]
    exact hafter.plans.models
  · rw [hsafe, hafter.plans.safeToModel_eq, List.map_reverse, List.map_map]
    intro l hl
    exact List.mem_reverse.2 (hafter.plans.covered l hl)
  · rw [hsafe, hinput]
    intro p hp
    obtain ⟨sorted, hperm, hfor₂⟩ := hafter.plan hshort hp
    exact ⟨_, sorted, hread p hp, st.plans.planFile_sorted p.1, hperm, hfor₂⟩
  · rw [hsafe]
    refine ⟨st.plans.safeToModel.map fun p => st.plans.planFile p.1, ?_, ?_⟩
    · rw [List.forall₂_map_right_iff]
      exact List.forall₂_same.2 hread
    · rw [← List.flatMap_def]
      exact hafter.partition hshort
  · have hn := congrArg List.length hbytes
    rw [List.length_map] at hn
    rw [hmap, hcount, hn]
  · have hmono := hfor.imp fun _ _ h => h.2.2
    rw [hmap, hrejected, ← hentries, countP_rejected hmono]

/-- Ingestion divides the input: the manifest numbers the lines in order with different request IDs,
the plan files together with the rejected lines partition the local copy, every plan entry that is
read back leads to its line, each plan file is sorted, and the counts are exact. -/
theorem ingestion_partition (lib : Stdlib) (codec : Codec) (cfg : IngestConfig) (disk : LocalDisk)
    (jobID : String) (cause : Int → Option Err) (input : Bytes) (manifest : RequestManifest)
    (files : JobFiles) (hinj : Function.Injective lib.uuidSHA1)
    (hok : lib.preProcessFiles codec cfg disk jobID cause input = .ok (manifest, files))
    (hlen : ∀ line ∈ normalizedLines [] input, line.length < 2 ^ 32) :
    ∃ lines, lines.map InputLine.bytes = normalizedLines [] input ∧
      files.Partitions lib codec cfg jobID lines manifest := by
  obtain ⟨infos, hall, h⟩ := preProcessFiles_partitions hinj hok hlen
  refine ⟨_, ?_, h⟩
  rw [map_bytes_inputLines, List.map_fst_zip hall.length_eq.le]

/-- A library whose hash is injective. -/
def Stdlib.injective : Stdlib := { Stdlib.sample with uuidSHA1 := id }

def sampleDisk : LocalDisk := ⟨2 ^ 40, by decide⟩

/-- Two models that are sanitized to one name, and one that no gateway serves. -/
def mixedRequests : List (String × String) :=
  [("a", "m/x"), ("b", "m:x"), ("c", "zz"), ("d", "m/x")]

def mixedInput : Bytes := requestsInput mixedRequests

def mixedConfig : IngestConfig :=
  { sampleIngestConfig with registered := fun modelID => modelID ∈ ["m/x", "m:x"] }

def mixedFiles : RequestManifest × JobFiles :=
  (Stdlib.injective.preProcessFiles (requestsCodec mixedRequests) mixedConfig sampleDisk "batch_1"
    (fun _ => none) mixedInput).toOption.getD (⟨[]⟩, ⟨[], [], ⟨[], [], 0, 0⟩⟩)

theorem preProcessFiles_mixed :
    Stdlib.injective.preProcessFiles (requestsCodec mixedRequests) mixedConfig sampleDisk "batch_1"
      (fun _ => none) mixedInput = .ok (mixedFiles.1, mixedFiles.2) := by
  rw [Prod.mk.eta]
  exact ok_of_isSome (by decide +kernel) _

theorem mixedInput_partition :
    (mixedFiles.2.modelMap.lineCount = 4 ∧ mixedFiles.2.modelMap.rejectedCount = 1 ∧
      mixedFiles.1.entries.map ManifestEntry.rejected = [false, false, true, false]) ∧
    ∃ lines, lines.map InputLine.bytes = normalizedLines [] mixedInput ∧
      mixedFiles.2.Partitions .injective (requestsCodec mixedRequests) mixedConfig "batch_1" lines
        mixedFiles.1 :=
  ⟨by decide +kernel, ingestion_partition .injective (requestsCodec mixedRequests) mixedConfig
    sampleDisk "batch_1" (fun _ => none) mixedInput _ _ Function.injective_id
    preProcessFiles_mixed (by decide +kernel)⟩

/-- Interning returns on every call, and a sequence of models gets different names without a path
separator. The models that ingestion names are those of the accepted lines, under the names of this
sequence; these are the names of the plan files, and the two maps are inverse to each other. -/
theorem planNames_injective :
    (∀ modelID used, InternCall modelID used (internModelID modelID used)) ∧
    (∀ ids used, (internAll ids used).1.Nodup ∧ ∀ name ∈ (internAll ids used).1, PathSafe name) ∧
    ∀ (lib : Stdlib) (codec : Codec) (cfg : IngestConfig) (disk : LocalDisk) (jobID : String)
      (cause : Int → Option Err) (input : Bytes) (manifest : RequestManifest) (files : JobFiles),
      lib.preProcessFiles codec cfg disk jobID cause input = .ok (manifest, files) →
      let models := files.modelMap.modelToSafe.map Prod.fst
      models.Nodup ∧
      (∃ infos, List.Forall₂ (fun line info => extractAndValidateLine lib codec cfg line = .ok info)
          (normalizedLines [] input) infos ∧
        ∀ modelID, modelID ∈ models ↔
          ∃ info ∈ infos, cfg.registered info.modelID = true ∧ info.modelID = modelID) ∧
      files.modelMap.modelToSafe.map Prod.snd = (internAll models []).1 ∧
      (files.plans.map Prod.fst).Perm (internAll models []).1 ∧
      ∀ modelID safe, files.modelMap.modelToSafe.lookup modelID = some safe ↔
        files.modelMap.safeToModel.lookup safe = some modelID := by
  refine ⟨internModelID_returns, fun ids used => ⟨nodup_internAll ids used, internAll_pathSafe⟩, ?_⟩
  intro lib codec cfg disk jobID cause input manifest files hok
  obtain ⟨st, hst, -, -, -, hplans, hmap⟩ := preProcessFiles_ok hok
  obtain ⟨infos, hall, -⟩ := preProcessJob_manifest hst
  have hnames := (Ingestion.names_start cfg).loop hst hall
  rw [List.nil_append] at hnames
  have hfiles := PlanAccumulator.finalize_names hplans fun name hname => by
    obtain ⟨p, hp, rfl⟩ := List.mem_map.1 ((List.perm_insertionSort _ _).mem_iff.1 hname)
    exact hnames.nonempty p hp
  simp only [hmap, hnames.named.interned]
  refine ⟨hnames.named.models, ⟨infos, hall, hnames.models⟩, trivial, ?_, hnames.named.lookup_iff⟩
  rw [hfiles, List.map_nil, List.append_nil]
  exact (List.reverse_perm _).trans (List.perm_insertionSort _ _)

theorem mixedInput_names :
    mixedFiles.2.modelMap.modelToSafe = [("m/x", "m_x"), ("m:x", "m_x_2")] ∧
    (mixedFiles.2.plans.map Prod.fst).Perm ["m_x", "m_x_2"] ∧
    ∀ modelID safe, mixedFiles.2.modelMap.modelToSafe.lookup modelID = some safe ↔
      mixedFiles.2.modelMap.safeToModel.lookup safe = some modelID := by
  have hmap : mixedFiles.2.modelMap.modelToSafe = [("m/x", "m_x"), ("m:x", "m_x_2")] := by
    decide +kernel
  obtain ⟨-, -, hnames, hplans, hinverse⟩ := planNames_injective.2.2 _ _ _ _ _ _ _ _ _
    preProcessFiles_mixed
  have hperm := hplans.trans (.of_eq hnames.symm)
  rw [hmap] at hperm
  exact ⟨hmap, hperm, hinverse⟩

-- models that sanitize to one base, to another model's numbered name and to nothing
example : (internAll ["a/b", "a_b_2", "a:b", "", "unknown"] []).1 =
    ["a_b", "a_b_2", "a_b_3", "unknown", "unknown_2"] := by decide +kernel

end BatchGateway
