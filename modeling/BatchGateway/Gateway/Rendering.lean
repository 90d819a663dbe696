import BatchGateway.Worker.Finalizer
import Mathlib.Data.Set.Function

/-! What an artifact contains, as a function of the entries that its author read. -/
namespace BatchGateway

/-- The two artifacts of a batch. -/
inductive ArtifactKind where
  | output | error
  deriving DecidableEq, Repr

def ArtifactKind.text : ArtifactKind → String
  | output => "output"
  | error => "error"

def artifactKey (lib : Stdlib) (batchID : String) (kind : ArtifactKind) : String :=
  lib.stableFileID batchID kind.text ++ ".jsonl"

/-- The artifact that an entry goes to. -/
def EntryRow.artifact (e : EntryRow) : ArtifactKind :=
  match e.status with
  | .completed => .output
  | .failed => if e.errorCode.getD "" ≠ "" then .error else .output
  | .pending | .inFlight => .error

/-- The data, one of the contents in the store, passes the integrity check of the entry's result. -/
def IsResult (lib : Stdlib) (contents : Set Bytes) (e : EntryRow) (data : Bytes) : Prop :=
  data ∈ contents ∧ lib.sha256 data = e.resultSHA256.getD ""

variable {lib : Stdlib} {contents : Set Bytes} {code code' : Option BatchErrorCode}
  {kind : ArtifactKind}
  {e e' r r' : EntryRow} {es es' rows rows' : List EntryRow} {part part' content : Bytes}

/-- What one entry contributes to an artifact. -/
def Contributes (lib : Stdlib) (contents : Set Bytes) (code : Option BatchErrorCode)
    (kind : ArtifactKind) (e : EntryRow) (part : Bytes) : Prop :=
  if e.artifact ≠ kind then part = []
  else if e.status.isTerminal then IsResult lib contents e part
  else ∃ c, code = some c ∧ part = lib.notExecutedLine e c

/-- The entries contribute the content, in order. -/
def Renders (lib : Stdlib) (contents : Set Bytes) (code : Option BatchErrorCode)
    (kind : ArtifactKind) (es : List EntryRow) (content : Bytes) : Prop :=
  ∃ parts, List.Forall₂ (Contributes lib contents code kind) es parts ∧ content = parts.flatten

/-- The requests without a result. -/
def unfinishedOf (es : List EntryRow) : List String :=
  (es.filter fun e => !e.status.isTerminal).map EntryRow.requestID

/-- An entry that was once read is still recognisable: its identity stays, and so does all of it once
it is finished. -/
structure ReadAs (e r : EntryRow) : Prop where
  requestID : r.requestID = e.requestID
  customID : r.customID = e.customID
  ordinal : r.ordinal = e.ordinal
  terminal : e.status.isTerminal = true → r = e

/-- The content was rendered from earlier reads of these rows. -/
def Describes (lib : Stdlib) (contents : Set Bytes) (rows : List EntryRow) (kind : ArtifactKind)
    (pub : Publication) (content : Bytes) : Prop :=
  ∃ es, List.Forall₂ ReadAs es rows ∧ pub.unfinished = unfinishedOf es ∧
    Renders lib contents pub.code kind es content

theorem ReadAs.refl (e : EntryRow) : ReadAs e e := ⟨rfl, rfl, rfl, fun _ => rfl⟩

theorem ReadAs.trans (h : ReadAs e r) (h' : ReadAs r r') : ReadAs e r' where
  requestID := h'.requestID.trans h.requestID
  customID := h'.customID.trans h.customID
  ordinal := h'.ordinal.trans h.ordinal
  terminal ht := by
    obtain rfl := h.terminal ht
    exact h'.terminal ht

theorem readAs_of_evolves {now : Time} {st : Stmt} (h : Stmt.Evolves now st r r') : ReadAs r r' where
  requestID := h.requestID
  customID := by cases h <;> rfl
  ordinal := by cases h <;> rfl
  terminal := h.eq_of_terminal

theorem forall₂_readAs_trans {xs ys zs : List EntryRow} (h : List.Forall₂ ReadAs xs ys)
    (h' : List.Forall₂ ReadAs ys zs) : List.Forall₂ ReadAs xs zs := by
  induction h generalizing zs with
  | nil => exact h'
  | cons hxy _ ih =>
    cases h' with
    | cons hyz hrest => exact .cons (hxy.trans hyz) (ih hrest)

theorem Describes.mono {pub : Publication} (h : Describes lib contents rows kind pub content)
    (hr : List.Forall₂ ReadAs rows rows') : Describes lib contents rows' kind pub content := by
  obtain ⟨es, hes, hrest⟩ := h
  exact ⟨es, forall₂_readAs_trans hes hr, hrest⟩

/-! ### Building content -/

theorem renders_nil : Renders lib contents code kind [] [] := ⟨[], .nil, rfl⟩

theorem Renders.snoc (h : Renders lib contents code kind es content)
    (hp : Contributes lib contents code kind e part) :
    Renders lib contents code kind (es ++ [e]) (content ++ part) := by
  obtain ⟨parts, hparts, rfl⟩ := h
  refine ⟨parts ++ [part], List.rel_append hparts (.cons hp .nil), ?_⟩
  simp

theorem unfinishedOf_snoc (es : List EntryRow) (e : EntryRow) : unfinishedOf (es ++ [e]) =
    unfinishedOf es ++ if e.status.isTerminal then [] else [e.requestID] := by
  unfold unfinishedOf
  cases h : e.status.isTerminal <;> simp [List.filter_append, h]

/-! ### One rendering only -/

theorem artifact_of_open (h : e.status.isTerminal = false) : e.artifact = .error := by
  unfold EntryRow.artifact
  cases hs : e.status <;> simp_all [EntryStatus.isTerminal]

/-- Two reads of one row contribute the same bytes when both found it finished, or both found it open
and used the same code. -/
theorem contributes_unique
    (hsha : Set.InjOn lib.sha256 contents)
    (he : ReadAs e r) (he' : ReadAs e' r) (hopen : e.status.isTerminal = e'.status.isTerminal)
    (hcode : e.status.isTerminal = false → code = code')
    (hp : Contributes lib contents code kind e part)
    (hp' : Contributes lib contents code' kind e' part') : part = part' := by
  cases ht : e.status.isTerminal with
  | true =>
    obtain rfl : e = e' := (he.terminal ht).symm.trans (he'.terminal (hopen.symm.trans ht))
    unfold Contributes at hp hp'
    split at hp
    next hk =>
      rw [if_pos hk] at hp'
      rw [hp, hp']
    next hk =>
      rw [if_neg hk, if_pos ht] at hp'
      exact hsha hp.1 hp'.1 (hp.2.trans hp'.2.symm)
  | false =>
    have ht' : e'.status.isTerminal = false := hopen.symm.trans ht
    unfold Contributes at hp hp'
    rw [artifact_of_open ht] at hp
    rw [artifact_of_open ht'] at hp'
    split at hp
    next hk =>
      rw [if_pos hk] at hp'
      rw [hp, hp']
    next hk =>
      rw [if_neg (by simp [ht])] at hp
      rw [if_neg hk, if_neg (by simp [ht'])] at hp'
      obtain ⟨c, hc, rfl⟩ := hp
      obtain ⟨c', hc', rfl⟩ := hp'
      obtain rfl : c = c' := Option.some.inj (hc.symm.trans ((hcode ht).trans hc'))
      simp only [Stdlib.notExecutedLine, ← he.requestID, ← he.customID, he'.requestID, he'.customID]

theorem requestIDs_of_readAs (h : List.Forall₂ ReadAs es rows) :
    es.map EntryRow.requestID = rows.map EntryRow.requestID := by
  induction h with
  | nil => rfl
  | cons hr _ ih => rw [List.map_cons, List.map_cons, ih, hr.requestID]

/-- Among entries with distinct requests, the list of unfinished requests tells which are open. -/
theorem mem_unfinishedOf (hn : (es.map EntryRow.requestID).Nodup) (he : e ∈ es) :
    e.requestID ∈ unfinishedOf es ↔ e.status.isTerminal = false := by
  unfold unfinishedOf
  rw [List.mem_map]
  constructor
  · rintro ⟨e', he', hid⟩
    obtain ⟨hmem, hopen⟩ := List.mem_filter.1 he'
    obtain rfl := List.inj_on_of_nodup_map hn hmem he hid
    simpa using hopen
  · intro ho
    exact ⟨e, List.mem_filter.2 ⟨he, by simp [ho]⟩, rfl⟩

/-- The induction follows the rows; `U` is the common list of unfinished requests. -/
theorem parts_unique (hsha : Set.InjOn lib.sha256 contents)
    {U : List String} {parts parts' : List Bytes}
    (hes : List.Forall₂ ReadAs es rows) (hes' : List.Forall₂ ReadAs es' rows)
    (hU : ∀ e ∈ es, e.requestID ∈ U ↔ e.status.isTerminal = false)
    (hU' : ∀ e ∈ es', e.requestID ∈ U ↔ e.status.isTerminal = false)
    (hcode : U ≠ [] → code = code') (hp : List.Forall₂ (Contributes lib contents code kind) es parts)
    (hp' : List.Forall₂ (Contributes lib contents code' kind) es' parts') : parts = parts' := by
  induction hes generalizing es' parts parts' with
  | nil =>
    cases hes'
    cases hp
    cases hp'
    rfl
  | cons he _ ih =>
    cases hes' with
    | cons he' hrest' =>
      cases hp with
      | cons hpart hparts =>
        cases hp' with
        | cons hpart' hparts' =>
          obtain ⟨hu, hus⟩ := List.forall_mem_cons.1 hU
          obtain ⟨hu', hus'⟩ := List.forall_mem_cons.1 hU'
          rw [← he.requestID, he'.requestID] at hu
          have hopen := hu.symm.trans hu'
          rw [ih hrest' hus hus' hparts hparts',
            contributes_unique hsha he he' (Bool.eq_iff_iff.2 ?_) ?_ hpart hpart']
          · simpa using not_congr hopen
          · exact fun ho => hcode (List.ne_nil_of_mem (hu.2 ho))

/-- Two renderings of the same rows agree when they found the same requests unfinished and, if there
are any, gave them the same code. -/
theorem Describes.unique
    (hsha : Set.InjOn lib.sha256 contents)
    (hn : (rows.map EntryRow.requestID).Nodup) {pub pub' : Publication} {content' : Bytes}
    (h : Describes lib contents rows kind pub content)
    (h' : Describes lib contents rows kind pub' content')
    (hu : pub.unfinished = pub'.unfinished) (hcode : pub.unfinished ≠ [] → pub.code = pub'.code) :
    content = content' := by
  obtain ⟨es, hes, hun, parts, hparts, rfl⟩ := h
  obtain ⟨es', hes', hun', parts', hparts', rfl⟩ := h'
  rw [parts_unique hsha hes hes' (U := pub.unfinished) ?_ ?_ hcode hparts hparts']
  · rw [← requestIDs_of_readAs hes] at hn
    rw [hun]
    exact fun e => mem_unfinishedOf hn
  · rw [← requestIDs_of_readAs hes'] at hn
    rw [hu, hun']
    exact fun e => mem_unfinishedOf hn

end BatchGateway
