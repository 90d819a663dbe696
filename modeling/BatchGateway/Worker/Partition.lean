import BatchGateway.Worker.Ingestion

/-! Ingestion as a whole: what the manifest, the counts and the plan files of an input file are. -/
namespace BatchGateway

open GoJson

variable {lib : Stdlib} {codec : Codec} {cfg : IngestConfig} {jobID : String}
  {cause cause' : Int → Option Err} {lines : List Bytes} {st st₁ st₂ : Ingestion}

/-! ### The loop over the lines -/

/-- The result does not depend on when the abort cause was looked at. -/
theorem preProcessLoop_unique (h₁ : lib.preProcessLoop codec cfg jobID cause lines st = .ok st₁)
    (h₂ : lib.preProcessLoop codec cfg jobID cause' lines st = .ok st₂) : st₁ = st₂ := by
  induction lines generalizing st with
  | nil => rw [preProcessLoop_nil h₁, preProcessLoop_nil h₂]
  | cons line lines ih =>
    obtain ⟨info, hinfo, -, h₁⟩ := preProcessLoop_cons h₁
    obtain ⟨info', hinfo', -, h₂⟩ := preProcessLoop_cons h₂
    cases hinfo.symm.trans hinfo'
    exact ih h₁ h₂

/-- The counts and the custom IDs that one line adds. -/
theorem ingestLine_counts (lib : Stdlib) (cfg : IngestConfig) (jobID : String) (st : Ingestion)
    (line : Bytes) (info : LineMeta) :
    let m := lib.manifestEntry jobID cfg.registered st.lineCount info.toRequestMeta
    let st' := lib.ingestLine cfg jobID st line info
    st'.lineCount = st.lineCount + 1 ∧ st'.seenCustomIDs = info.customID :: st.seenCustomIDs ∧
      st'.rejectedCount = st.rejectedCount + if m.rejected then 1 else 0 := by
  dsimp only [Stdlib.ingestLine]
  split <;> simp

/-- The identities of the lines do not depend on the models that are registered. -/
theorem preProcessLoop_identities {cfg' : IngestConfig} {st' : Ingestion}
    (h₁ : lib.preProcessLoop codec cfg jobID cause lines st = .ok st₁)
    (h₂ : lib.preProcessLoop codec cfg' jobID cause' lines st' = .ok st₂)
    (hn : st'.lineCount = st.lineCount)
    (hid : (RequestManifest.mk st'.entries).identities = (RequestManifest.mk st.entries).identities) :
    (RequestManifest.mk st₂.entries).identities = (RequestManifest.mk st₁.entries).identities := by
  induction lines generalizing st st' with
  | nil =>
    rw [preProcessLoop_nil h₁, preProcessLoop_nil h₂]
    exact hid
  | cons line lines ih =>
    obtain ⟨info, hinfo, -, h₁⟩ := preProcessLoop_cons h₁
    obtain ⟨info', hinfo', -, h₂⟩ := preProcessLoop_cons h₂
    obtain ⟨p, hp, hcustom, -⟩ := extract_ok hinfo
    obtain ⟨p', hp', hcustom', -⟩ := extract_ok hinfo'
    cases hp.symm.trans hp'
    have hsame : info'.customID = info.customID := hcustom'.symm.trans hcustom
    refine ih h₁ h₂ ?_ ?_
    · rw [(ingestLine_counts ..).1, (ingestLine_counts ..).1, hn]
    · rw [(ingestLine_cases ..).2.1, (ingestLine_cases ..).2.1]
      simp only [RequestManifest.identities, List.map_append, List.map_cons, List.map_nil] at hid ⊢
      simp only [hid, Stdlib.manifestEntry_requestID, Stdlib.manifestEntry_ordinal,
        Stdlib.manifestEntry_customID, hn, hsame]

/-- The manifest is the one of the validated lines, in line order, and the counts are its counts. -/
theorem preProcessLoop_manifest (h : lib.preProcessLoop codec cfg jobID cause lines st = .ok st₁) :
    ∃ infos rest, List.Forall₂ (fun line info =>
        extractAndValidateLine lib codec cfg line = .ok info) lines infos ∧
      lib.ingestLoop jobID cfg.registered st.lineCount st.seenCustomIDs
        (infos.map LineMeta.toRequestMeta) = .ok rest ∧
      st₁.entries = st.entries ++ rest ∧ st₁.input = st.input ++ lines.flatten ∧
      rest.length = lines.length ∧ st₁.lineCount = st.lineCount + lines.length ∧
      st₁.rejectedCount = st.rejectedCount + rest.countP ManifestEntry.rejected := by
  induction lines generalizing st with
  | nil =>
    cases preProcessLoop_nil h
    exact ⟨[], [], .nil, rfl, by simp, by simp, rfl, by simp, by simp⟩
  | cons line lines ih =>
    obtain ⟨info, hinfo, hseen, h⟩ := preProcessLoop_cons h
    obtain ⟨infos, rest, hall, hloop, hentries, hinput, hlen, hcount, hrej⟩ := ih h
    obtain ⟨hin, hent, -⟩ := ingestLine_cases lib cfg jobID st line info
    obtain ⟨hn, hs, hr⟩ := ingestLine_counts lib cfg jobID st line info
    rw [hn, hs] at hloop
    refine ⟨info :: infos, lib.manifestEntry jobID cfg.registered st.lineCount info.toRequestMeta ::
      rest, .cons hinfo hall, ?_, ?_, ?_, congrArg (· + 1) hlen, ?_, ?_⟩
    · rw [List.map_cons, Stdlib.ingestLoop, if_neg hseen, hloop]
      rfl
    · rw [hentries, hent, List.append_assoc, List.singleton_append]
    · rw [hinput, hin, List.flatten_cons, List.append_assoc]
    · rw [hcount, hn, List.length_cons]
      omega
    · rw [hrej, hr, List.countP_cons]
      split <;> omega

/-- The manifest of a whole input file. -/
theorem preProcessJob_manifest {input : Bytes}
    (h : lib.preProcessJob codec cfg jobID cause input = .ok st) :
    ∃ infos, List.Forall₂ (fun line info => extractAndValidateLine lib codec cfg line = .ok info)
        (normalizedLines [] input) infos ∧
      lib.ingest jobID cfg.registered (infos.map LineMeta.toRequestMeta) = .ok ⟨st.entries⟩ ∧
      st.input = (normalizedLines [] input).flatten ∧
      st.entries.length = (normalizedLines [] input).length ∧
      st.lineCount = (normalizedLines [] input).length ∧
      st.rejectedCount = st.entries.countP ManifestEntry.rejected := by
  obtain ⟨infos, rest, hall, hloop, hentries, hinput, hlen, hcount, hrej⟩ :=
    preProcessLoop_manifest h
  rw [List.nil_append] at hentries hinput
  refine ⟨infos, hall, ?_, hinput, by rw [hentries, hlen], by simpa using hcount, ?_⟩
  · rw [hentries, Stdlib.ingest]
    exact congrArg (Except.map RequestManifest.mk) hloop
  · rw [hentries]
    simpa using hrej

end BatchGateway
