import Finality.Proofs.Feed.Family
import Finality.Proofs.Feed.Numbers
import Finality.Proofs.Replay.Recording
import Finality.Proofs.Yaml.Document
import Finality.Replay.Program

/-! # How a run ends

A run is to end in one of two ways.  If its configuration loads and every frame of its recording is
understood, it prints the report of the state that the frames lead to and ends with status 0
(`Completes`); otherwise it prints nothing and ends with status 1.

It does so unless it meets a fault that is not provided for (`Escapes`): a name of a file that the
system cannot be asked about, a configuration with a defect that is not among the malformed ones, or
an overlong integer in a frame.  These are all (`ending_law`): the numbers that a run could not write
it cannot have read (`exists_report`). -/

namespace Finality.Replay.Program

open Feed (Dispatcher)
open Feed.Frame (Failure Source)
open Encoding
open Except (mapError_eq_error_iff bind_eq_error_iff)

variable {files : Files} {o : Options} {cfg : Config} {d : Dispatcher} {e : Escape}
  {octets : List UInt8}

/-- The run has a configuration: the standard one if it asks for none. -/
inductive Loads (files : Files) (o : Options) : Config → Prop where
  | standard : o.config = none → Loads files o .standard
  | file {text : String} {octets : List UInt8} {cfg : Config} : o.config = some text →
      files (Path.ofText text) = .ok octets → Config.ofOctets octets = .ok cfg → Loads files o cfg

/-- All that the run reads is good, and the frames lead to a state. -/
def Completes (files : Files) (o : Options) (d : Dispatcher) : Prop :=
  ∃ cfg octets contents, Loads files o cfg ∧ files (Path.ofText o.frames) = .ok octets ∧
    List.Forall₂ Holds (frames octets) contents ∧
    d = (({} : Dispatcher).dispatchAll cfg (contents.flatMap (·.2))).1

/-- The configuration has a fault that is not provided for. -/
inductive EscapesLoading (files : Files) (o : Options) : Escape → Prop where
  | name {text : String} : o.config = some text →
      files (Path.ofText text) = .error .zeroCharacter → EscapesLoading files o .zeroCharacter
  | defect {text : String} {octets : List UInt8} {f : Yaml.Fault} : o.config = some text →
      files (Path.ofText text) = .ok octets →
      Yaml.Document.ofSource (.ofOctets octets) = .error f → Yaml.Defect octets f →
      EscapesLoading files o (.config (.yaml f))

/-- The run meets a fault that is not provided for. -/
inductive Escapes (files : Files) (o : Options) : Escape → Prop where
  | loading {e : Escape} : EscapesLoading files o e → Escapes files o e
  | name {cfg : Config} : Loads files o cfg →
      files (Path.ofText o.frames) = .error .zeroCharacter → Escapes files o .zeroCharacter
  /-- The first frame that is not understood comes to an overlong integer. -/
  | frame {cfg : Config} {octets line : List UInt8} {before after : List (List UInt8)} {n : Nat} :
      Loads files o cfg → files (Path.ofText o.frames) = .ok octets →
      frames octets = before ++ line :: after →
      (∀ frame ∈ before, ∃ es, Feed.Frame.ofBytes frame = .ok es) →
      (Source.octets line).StopsAtOverlong n → Escapes files o (.overlongInteger n)

/-- The run ends in one of the two ways that are provided for. -/
structure EndsAsPromised (files : Files) (o : Options) (r : Run) : Prop where
  completed : ∀ d, Completes files o d →
    r.ending = .exit 0 ∧ report? o d.tracker.snapshot = some r.output
  stopped : (∀ d, ¬Completes files o d) → r.ending = .exit 1 ∧ r.output = ""

theorem EndsAsPromised.not_escaped {r : Run} (h : EndsAsPromised files o r) (e : Escape) :
    r.ending ≠ .escaped e := by
  intro hescaped
  by_cases hgood : ∃ d, Completes files o d
  · obtain ⟨d, hd⟩ := hgood
    rw [(h.completed d hd).1] at hescaped
    cases hescaped
  · rw [(h.stopped (not_exists.mp hgood)).1] at hescaped
    cases hescaped

/-! ### The configuration -/

theorem message?_eq_none_iff {fault : ReadFault} {path : Path} :
    fault.message? path = none ↔ fault = .zeroCharacter := by
  cases fault <;> simp [ReadFault.message?, ReadFault.description?]

theorem provided?_yaml_eq_none_iff {f : Yaml.Fault} :
    provided? (.yaml f) = none ↔ f ≠ .malformed := by
  cases f <;> simp [provided?]

theorem ofOctets_eq_yaml_iff {f : Yaml.Fault} : Config.ofOctets octets = .error (.yaml f) ↔
    Yaml.Document.ofSource (.ofOctets octets) = .error f := by
  unfold Config.ofOctets Config.ofSource
  rw [bind_eq_error_iff, mapError_eq_error_iff]
  constructor
  · rintro (⟨_, h, hf⟩ | ⟨document, -, h⟩)
    · cases hf
      exact h
    · split at h
      · cases h
      · obtain ⟨_, -, hissues⟩ := mapError_eq_error_iff.mp h
        cases hissues
  · exact fun h => .inl ⟨f, h, rfl⟩

theorem loadConfig_eq_ok_iff : loadConfig files o = .ok cfg ↔ Loads files o cfg := by
  constructor
  · intro h
    unfold loadConfig at h
    split at h
    · rename_i hconfig
      cases h
      exact .standard hconfig
    rename_i text hconfig
    dsimp only at h
    split at h
    · split at h <;> cases h
    rename_i octets hfile
    split at h
    · rename_i hcfg
      cases h
      exact .file hconfig hfile hcfg
    · split at h <;> cases h
  · intro h
    cases h with
    | standard hconfig => simp [loadConfig, hconfig]
    | file hconfig hfile hcfg => simp [loadConfig, hconfig, hfile, hcfg]

theorem loadConfig_eq_escape_iff :
    loadConfig files o = .error (.error e) ↔ EscapesLoading files o e := by
  constructor
  · intro h
    unfold loadConfig at h
    split at h
    · cases h
    rename_i text hconfig
    dsimp only at h
    split at h
    · rename_i fault hfile
      split at h
      · cases h
      · rename_i hmessage
        cases h
        exact .name hconfig (message?_eq_none_iff.mp hmessage ▸ hfile)
    rename_i octets hfile
    split at h
    · cases h
    rename_i fault hfault
    split at h
    · cases h
    rename_i hprovided
    cases h
    cases fault with
    | issues issues => cases hprovided
    | yaml f =>
        have hsource := ofOctets_eq_yaml_iff.mp hfault
        exact .defect hconfig hfile hsource
          ((Yaml.Document.ofOctets_fault hsource).resolve_left (provided?_yaml_eq_none_iff.mp hprovided))
  · intro h
    cases h with
    | name hconfig hfile =>
        simp [loadConfig, hconfig, hfile, ReadFault.message?, ReadFault.description?]
    | @defect text octets f hconfig hfile hsource hdefect =>
        have hprovided := provided?_yaml_eq_none_iff.mpr hdefect.ne_malformed
        simp [loadConfig, hconfig, hfile, ofOctets_eq_yaml_iff.mpr hsource, hprovided]

/-! ### The report -/

theorem moderate_of_holds {fs : List (List UInt8)}
    {contents : List (List Json.Value × List Feed.Event)} (h : List.Forall₂ Holds fs contents) :
    ∀ e ∈ contents.flatMap (·.2), e.Moderate := by
  induction h with
  | nil => nofun
  | @cons frame c fs contents hframe hfs ih =>
      have hevents : (Source.octets frame).events = .ok c.2 := hframe.events_eq
      rw [List.flatMap_cons]
      exact List.forall_mem_append.mpr ⟨Source.moderate_events hevents, ih⟩

/-- There is a report of what frames lead to, as their numbers have been read. -/
theorem exists_report (h : Completes files o d) :
    ∃ text, report? o d.tracker.snapshot = some text := by
  obtain ⟨cfg, octets, contents, -, -, hcontents, rfl⟩ := h
  have hfresh : ({} : Dispatcher).tracker.snapshot.Writable := ⟨nofun, nofun⟩
  have hwritable := Feed.Dispatcher.writable_dispatchAll hfresh (moderate_of_holds hcontents) cfg
  obtain ⟨first, hfirst⟩ := Snapshot.exists_authorityLine hwritable.setId
  obtain ⟨text, htext, -⟩ := Snapshot.splitOn_summary hwritable.heights hfirst
  rw [report?, htext]
  split <;> exact ⟨_, rfl⟩

/-! ### The run -/

theorem replayReport_of_none {path text : String}
    (h : (replay cfg path {} octets).failure = none)
    (hreport : report? o (replay cfg path {} octets).dispatcher.tracker.snapshot = some text) :
    let r := replayReport o cfg path octets
    r.ending = .exit 0 ∧ r.output = text := by
  simp [replayReport, h, hreport]

theorem replayReport_of_overlong {path : String} {n : Nat}
    (h : (replay cfg path {} octets).failure = some (.overlongInteger n)) :
    let r := replayReport o cfg path octets
    r.ending = .escaped (.overlongInteger n) ∧ r.output = "" := by
  simp [replayReport, h, escaping]

theorem replayReport_of_other {path : String} {failure : Failure}
    (h : (replay cfg path {} octets).failure = some failure)
    (hother : ∀ n, failure ≠ .overlongInteger n) :
    let r := replayReport o cfg path octets
    r.ending = .exit 1 ∧ r.output = "" := by
  cases failure with
  | overlongInteger n => exact absurd rfl (hother n)
  | json | encoding | shape | message =>
    simp [replayReport, h, Failure.fault?, stopped]

theorem runOptions_of_completes (h : Completes files o d) :
    let r := runOptions files o
    r.ending = .exit 0 ∧ report? o d.tracker.snapshot = some r.output := by
  obtain ⟨text, hreport⟩ := exists_report h
  obtain ⟨cfg, octets, contents, hcfg, hfile, hcontents, rfl⟩ := h
  obtain ⟨hnone, -, hd⟩ := replay_of_holds hcontents cfg (Path.ofText o.frames).text {}
  have hends := replayReport_of_none (o := o) hnone (hd ▸ hreport)
  simp only [runOptions, loadConfig_eq_ok_iff.mpr hcfg, hfile]
  exact ⟨hends.1, hends.2 ▸ hreport⟩

/-- If a run meets a fault that is not provided for, it ends with it. -/
theorem runOptions_of_escapes (h : Escapes files o e) :
    let r := runOptions files o
    r.ending = .escaped e ∧ r.output = "" := by
  cases h with
  | loading h => simp [runOptions, loadConfig_eq_escape_iff.mpr h, escaping]
  | name hcfg hfile =>
      simp [runOptions, loadConfig_eq_ok_iff.mpr hcfg, hfile, ReadFault.message?,
        ReadFault.description?, escaping]
  | frame hcfg hfile hframes hbefore hline =>
      have hfailure := failure_replay_of_frames_eq hframes hbefore
        (Feed.Frame.events_eq_overlong_iff.mpr hline)
      simp only [runOptions, loadConfig_eq_ok_iff.mpr hcfg, hfile]
      exact replayReport_of_overlong (hfailure _ _ _)

/-- There is no other way to end but with status 1 and nothing printed. -/
theorem runOptions_cases (files : Files) (o : Options) :
    (∃ d, Completes files o d) ∨ (∃ e, Escapes files o e) ∨
      (runOptions files o).ending = .exit 1 ∧ (runOptions files o).output = "" := by
  cases hload : loadConfig files o with
  | error failure =>
      cases failure with
      | error e => exact .inr (.inl ⟨e, .loading (loadConfig_eq_escape_iff.mp hload)⟩)
      | ok notice => exact .inr (.inr (by simp [runOptions, hload, stopped]))
  | ok cfg =>
      have hcfg := loadConfig_eq_ok_iff.mp hload
      cases hfile : files (Path.ofText o.frames) with
      | error fault =>
          cases hmessage : fault.message? (Path.ofText o.frames) with
          | none => exact .inr (.inl ⟨_, .name hcfg (message?_eq_none_iff.mp hmessage ▸ hfile)⟩)
          | some reason => exact .inr (.inr (by simp [runOptions, hload, hfile, hmessage, stopped]))
      | ok octets =>
          obtain hall | ⟨before, line, after, failure, hframes, hbefore, hline⟩ :=
            frames_cases (frames octets)
          · obtain ⟨contents, hcontents⟩ := exists_contents hall
            exact .inl ⟨_, cfg, octets, contents, hcfg, hfile, hcontents, rfl⟩
          by_cases hover : ∃ n, failure = .overlongInteger n
          · obtain ⟨n, rfl⟩ := hover
            exact .inr (.inl ⟨_, .frame hcfg hfile hframes hbefore
              (Feed.Frame.events_eq_overlong_iff.mp hline)⟩)
          · refine .inr (.inr ?_)
            simp only [runOptions, hload, hfile]
            exact replayReport_of_other (failure_replay_of_frames_eq hframes hbefore hline _ _ _)
              fun n hn => hover ⟨n, hn⟩

/-- **A run ends as promised unless it meets a fault that is not provided for.**  Such a fault is
what it then ends with, and nothing has been printed. -/
theorem ending_law (files : Files) (arguments : List String) (o : Options)
    (h : Request.ofArguments arguments = .ok (.run o)) :
    let r := run files arguments
    (EndsAsPromised files o r ↔ ∀ e, ¬Escapes files o e) ∧
      (∀ e, r.ending = .escaped e ↔ Escapes files o e) ∧
      ∀ e, Escapes files o e → r.output = "" := by
  intro r
  have hr : r = runOptions files o := by simp only [r, run, h]
  rw [hr]
  have hescaped : ∀ e, (runOptions files o).ending = .escaped e ↔ Escapes files o e := by
    refine fun e => ⟨fun hends => ?_, fun he => (runOptions_of_escapes he).1⟩
    obtain ⟨d, hd⟩ | ⟨e', he⟩ | ⟨hstopped, -⟩ := runOptions_cases files o
    · rw [(runOptions_of_completes hd).1] at hends
      cases hends
    · rw [(runOptions_of_escapes he).1] at hends
      cases hends
      exact he
    · rw [hstopped] at hends
      cases hends
  refine ⟨⟨fun hends e he => ?_, fun hnone => ⟨fun d => runOptions_of_completes, fun hbad => ?_⟩⟩,
    hescaped, fun e he => (runOptions_of_escapes he).2⟩
  · exact hends.not_escaped e ((hescaped e).mpr he)
  · obtain ⟨d, hd⟩ | ⟨e, he⟩ | hstopped := runOptions_cases files o
    · exact absurd hd (hbad d)
    · exact absurd he (hnone e)
    · exact hstopped

/-- A recording of the one line `[1,[60]]`: the run ends with status 0. -/
theorem ending_law_bestLine :
    let files : Files := fun _ => .ok bestLine
    let o : Options := { frames := "f" }
    let r := run files ["f"]
    let d := (({} : Dispatcher).dispatchAll .standard [.bestBlock 60]).1
    Request.ofArguments ["f"] = .ok (.run o) ∧ EndsAsPromised files o r ∧
      r.ending = .exit 0 ∧ report? o d.tracker.snapshot = some r.output := by
  intro files o r d
  have hrequest : Request.ofArguments ["f"] = .ok (.run o) := by decide
  obtain ⟨hlaw, hescapes, -⟩ := ending_law files ["f"] o hrequest
  have hframes : frames bestLine = [bestLine] := rfl
  have hread : ∀ frame ∈ [bestLine], ∃ es, Feed.Frame.ofBytes frame = .ok es := by
    simp only [List.forall_mem_cons]
    exact ⟨⟨_, ofBytes_bestLine⟩, by simp⟩
  obtain ⟨contents, hcontents⟩ := exists_contents hread
  have hgood : Completes files o d := ⟨_, bestLine, contents, .standard rfl, rfl,
    hframes ▸ hcontents, by rw [eq_of_holds_bestLine hcontents]⟩
  have hends := runOptions_of_completes hgood
  have hr : r = runOptions files o := by simp only [r, run, hrequest]
  rw [← hr] at hends
  refine ⟨hrequest, hlaw.mpr fun e he => ?_, hends⟩
  have hescaped := (hescapes e).mpr he
  rw [hends.1] at hescaped
  cases hescaped

/-- A configuration of one octet that no text holds: the run does not end with status 1. -/
theorem not_endsAsPromised_undecodable :
    let files : Files := fun path => .ok (if path = Path.ofText "c" then [0xFF] else [])
    let o : Options := { frames := "f", config := some "c" }
    Request.ofArguments ["f", "--config", "c"] = .ok (.run o) ∧
      ¬EndsAsPromised files o (run files ["f", "--config", "c"]) := by
  intro files o
  have hrequest : Request.ofArguments ["f", "--config", "c"] = .ok (.run o) := by decide
  have hr : run files ["f", "--config", "c"] = runOptions files o := by simp only [run, hrequest]
  have hsource : Yaml.Document.ofSource (.ofOctets [0xFF]) =
      .error (.undecodable ⟨[0xFF], ⟨0, 1, .invalidStart⟩⟩) := by decide
  have hoctets : ¬Utf8.WellFormed [0xFF] := by
    rw [← Utf8.exists_decode_iff]
    rintro ⟨cs, hcs⟩
    cases hcs
  have hloading : EscapesLoading files o _ := .defect rfl rfl hsource (.encoding hoctets)
  have hescaped := (runOptions_of_escapes (.loading hloading)).1
  exact ⟨hrequest, fun hends => hends.not_escaped _ (hr ▸ hescaped)⟩

end Finality.Replay.Program
