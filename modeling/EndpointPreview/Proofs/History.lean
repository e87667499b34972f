import Mathlib.Data.List.Basic
import EndpointPreview.Session
/-!
The history of a session is the newest part of an undo stack without a bound. The stack makes the
steps of the session that take effect; the session only forgets what lies too deep.
-/

namespace EndpointPreview

namespace Session

inductive Step
  | apply (edit : Edit)
  | replace (next : Config)
  | undo

def Step.isUndo : Step → Bool
  | .undo => true
  | _ => false

def perform (s : Session) : Step → Session
  | .apply edit => s.apply edit
  | .replace next => s.replace next
  | .undo => s.undo?.getD s

def run (s : Session) (steps : List Step) : Session :=
  steps.foldl perform s

def takesEffect (s : Session) (step : Step) : Bool :=
  !step.isUndo || s.undo?.isSome

def effective (s : Session) : List Step → List Step
  | [] => []
  | step :: steps =>
    (if s.takesEffect step then [step] else []) ++ effective (s.perform step) steps

end Session

open Session (Step)

structure Timeline where
  current : Config
  below : List Config

namespace Timeline

def push (t : Timeline) (next : Config) : Timeline :=
  ⟨next, t.current :: t.below⟩

def pop (t : Timeline) : Timeline :=
  match t.below with
  | [] => t
  | previous :: earlier => ⟨previous, earlier⟩

def perform (t : Timeline) : Step → Timeline
  | .apply edit => t.push (t.current.apply edit)
  | .replace next => t.push next
  | .undo => t.pop

def run (t : Timeline) (steps : List Step) : Timeline :=
  steps.foldl perform t

end Timeline

namespace Session

/-- The relation of a session to the timeline that it shows the newest part of. -/
structure Shows (s : Session) (t : Timeline) : Prop where
  preview : s.preview = s.config.preview s.host
  config : s.config = t.current
  history : s.history = t.below.take s.undoDepth
  bounded : s.undoDepth ≤ historyLimit
  version : s.version = t.below.length

theorem Shows.undoDepth_le {s : Session} {t : Timeline} (h : s.Shows t) :
    s.undoDepth ≤ s.version := by
  have hlength := congrArg List.length h.history
  rw [List.length_take] at hlength
  rw [h.version]
  unfold undoDepth at *
  omega

theorem start_shows (config : Config) (host : String) : (start config host).Shows ⟨config, []⟩ where
  preview := by simp only [start]
  config := rfl
  history := rfl
  bounded := Nat.zero_le _
  version := rfl

theorem Shows.replace {s : Session} {t : Timeline} (h : s.Shows t) (next : Config) :
    (s.replace next).Shows (t.push next) := by
  have hdepth := h.undoDepth_le
  rw [h.version] at hdepth
  -- Cutting at the limit after a push keeps one snapshot more, unless the limit is reached.
  have hkept : (s.replace next).history =
      (t.current :: t.below).take (min historyLimit (s.undoDepth + 1)) := by
    change (s.config :: s.history).take historyLimit = _
    rw [h.config, h.history, ← List.take_succ_cons, List.take_take]
  have hlength : (s.replace next).undoDepth = min historyLimit (s.undoDepth + 1) := by
    rw [undoDepth, hkept, List.length_take, List.length_cons]
    omega
  refine ⟨by simp only [Session.replace], rfl, ?_, ?_, ?_⟩
  · rw [hlength]
    exact hkept
  · rw [hlength]
    exact Nat.min_le_left _ _
  · change s.version + 1 = (t.current :: t.below).length
    rw [h.version, List.length_cons]

theorem Shows.undo {s previous : Session} {t : Timeline} (h : s.Shows t)
    (hundo : s.undo? = some previous) :
    previous.Shows t.pop ∧ t.below.head? = some previous.config ∧
      previous.version + 1 = s.version := by
  unfold undo? at hundo
  split at hundo
  · cases hundo
  · next snapshot earlier hhistory =>
    cases hundo
    have hdepth : s.undoDepth = earlier.length + 1 := by rw [undoDepth, hhistory, List.length_cons]
    have htake := h.history
    rw [hhistory, hdepth] at htake
    -- The history is a prefix of the timeline, so both have the same snapshot on top.
    obtain ⟨below, hbelow⟩ : ∃ below, t.below = snapshot :: below := by
      cases hb : t.below with
      | nil => rw [hb] at htake; cases htake
      | cons top below =>
        rw [hb, List.take_succ_cons] at htake
        obtain ⟨rfl, -⟩ := List.cons_eq_cons.mp htake
        exact ⟨below, rfl⟩
    rw [hbelow, List.take_succ_cons] at htake
    have hbounded := h.bounded
    have hversion := h.version
    rw [hbelow, List.length_cons] at hversion
    refine ⟨⟨by dsimp only, ?_, ?_, ?_, ?_⟩, by rw [hbelow]; rfl, ?_⟩
    · simp [Timeline.pop, hbelow]
    · simpa [Timeline.pop, hbelow, undoDepth] using htake
    · simp only [undoDepth] at hdepth hbounded ⊢
      omega
    · simp [Timeline.pop, hbelow, hversion]
    · simp [hversion]

theorem undo?_eq_none {s : Session} : s.undo? = none ↔ s.history = [] := by
  unfold undo?
  split <;> simp_all

theorem perform_of_no_effect {s : Session} {step : Step} (h : s.takesEffect step = false) :
    s.perform step = s := by
  cases step with
  | apply edit => cases h
  | replace next => cases h
  | undo =>
    have hnone : s.undo? = none := by simpa [takesEffect, Step.isUndo] using h
    rw [perform, hnone, Option.getD_none]

theorem Shows.perform {s : Session} {t : Timeline} {step : Step} (h : s.Shows t)
    (heffect : s.takesEffect step = true) : (s.perform step).Shows (t.perform step) := by
  cases step with
  | apply edit =>
    have hnext := h.replace (s.config.apply edit)
    rw [h.config] at hnext
    simpa only [Session.perform, apply, Timeline.perform, h.config] using hnext
  | replace next => exact h.replace next
  | undo =>
    have hsome : s.undo?.isSome = true := by simpa [takesEffect, Step.isUndo] using heffect
    obtain ⟨previous, hundo⟩ := Option.isSome_iff_exists.mp hsome
    rw [Session.perform, hundo, Option.getD_some]
    exact (h.undo hundo).1

theorem perform_version {s : Session} {t : Timeline} {step : Step} (h : s.Shows t)
    (heffect : s.takesEffect step = true) :
    (s.perform step).version + (if step.isUndo then 1 else 0) =
      s.version + (if step.isUndo then 0 else 1) := by
  cases step with
  | apply edit => rfl
  | replace next => rfl
  | undo =>
    have hsome : s.undo?.isSome = true := by simpa [takesEffect, Step.isUndo] using heffect
    obtain ⟨previous, hundo⟩ := Option.isSome_iff_exists.mp hsome
    rw [Session.perform, hundo, Option.getD_some]
    exact (h.undo hundo).2.2

theorem perform_host (s : Session) (step : Step) : (s.perform step).host = s.host := by
  cases step with
  | apply edit => rfl
  | replace next => rfl
  | undo =>
    simp only [perform, undo?]
    cases s.history <;> rfl

theorem run_host (s : Session) (steps : List Step) : (s.run steps).host = s.host := by
  induction steps generalizing s with
  | nil => rfl
  | cons step steps ih => exact (ih _).trans (s.perform_host step)

theorem Shows.run {s : Session} {t : Timeline} (h : s.Shows t) (steps : List Step) :
    (s.run steps).Shows (t.run (s.effective steps)) := by
  induction steps generalizing s t with
  | nil => exact h
  | cons step steps ih =>
    change ((s.perform step).run steps).Shows _
    rw [effective]
    by_cases heffect : s.takesEffect step = true
    · rw [if_pos heffect]
      exact ih (h.perform heffect)
    · rw [if_neg heffect, List.nil_append]
      rw [perform_of_no_effect (Bool.eq_false_iff.mpr heffect)]
      exact ih h

theorem run_version {s : Session} {t : Timeline} (h : s.Shows t) (steps : List Step) :
    (s.run steps).version + (s.effective steps).countP Step.isUndo =
      s.version + steps.countP (!·.isUndo) := by
  induction steps generalizing s t with
  | nil => rfl
  | cons step steps ih =>
    change ((s.perform step).run steps).version + _ = _
    rw [effective]
    by_cases heffect : s.takesEffect step = true
    · have hrest := ih (h.perform heffect)
      have hstep := perform_version h heffect
      rw [if_pos heffect, List.countP_append, List.countP_singleton, List.countP_cons]
      cases hundo : step.isUndo <;> simp [hundo] at hstep ⊢ <;> omega
    · have hnone := perform_of_no_effect (Bool.eq_false_iff.mpr heffect)
      have hundo : step.isUndo = true := by
        by_contra hne
        exact heffect (by simp [takesEffect, hne])
      rw [if_neg heffect, List.nil_append, hnone, ih h, List.countP_cons]
      simp [hundo]

end Session

/-- A session after any run, beside the unbounded stack that made the same effective steps. -/
theorem session_shows_timeline (config : Config) (host : String) (steps : List Step) :
    let s := (Session.start config host).run steps
    let done := (Session.start config host).effective steps
    let t := Timeline.run ⟨config, []⟩ done
    s.preview = s.config.preview host ∧
      s.config = t.current ∧
      s.history = t.below.take s.undoDepth ∧
      s.undoDepth ≤ 100 ∧ s.undoDepth ≤ s.version ∧
      s.version = t.below.length ∧
      s.version + done.countP Step.isUndo = steps.countP (!·.isUndo) ∧
      (s.history ≠ [] → ∃ previous, s.undo? = some previous ∧
        t.below.head? = some previous.config ∧ previous.version + 1 = s.version) ∧
      (s.history = [] → s.undo? = none ∧ s.perform .undo = s) := by
  intro s done t
  have hstart := Session.start_shows config host
  have hshows : s.Shows t := hstart.run steps
  have hhost : s.host = host := (Session.start config host).run_host steps
  refine ⟨?_, hshows.config, hshows.history, hshows.bounded, hshows.undoDepth_le,
    hshows.version, ?_, ?_, ?_⟩
  · rw [hshows.preview, hhost]
  · rw [Session.run_version hstart steps]
    exact Nat.zero_add _
  · intro hne
    obtain ⟨previous, hundo⟩ := Option.ne_none_iff_exists'.mp (mt Session.undo?_eq_none.mp hne)
    exact ⟨previous, hundo, (hshows.undo hundo).2⟩
  · intro hnil
    have hnone := Session.undo?_eq_none.mpr hnil
    exact ⟨hnone, by rw [Session.perform, hnone, Option.getD_none]⟩

end EndpointPreview
