import ChipEight.Session
import Mathlib.Data.List.Sort

/-!
# Playing a script

A session does one thing after the other: for each frame the events scheduled for it, a tick, a
batch and a pause (`Settings.acts`), and nothing else (`foldlM_acts`). Events may be listed in any
order. Sorting the list by frame without swapping events of one frame gives the order in which they
are applied, those of later frames than the last being left out (`flatMap_scriptAt`). So two scripts
that schedule the same for every frame that is played play the same session
(`script_played_in_order`).
-/

set_option autoImplicit false

namespace ChipEight

/-! ## Sorting by a key -/

section

variable {α : Type} {key : α → Nat}

theorem filter_lt_append_filter_eq {l : List α} (h : l.Pairwise fun a b => key a ≤ key b)
    (n : Nat) :
    l.filter (fun a => key a < n) ++ l.filter (fun a => key a = n) =
      l.filter fun a => key a < n + 1 := by
  induction l with
  | nil => rfl
  | cons a l ih =>
    obtain ⟨hfirst, hrest⟩ := List.pairwise_cons.1 h
    have ih := ih hrest
    rcases Nat.lt_trichotomy (key a) n with hlt | heq | hgt
    · have hne : key a ≠ n := by omega
      have hlt' : key a < n + 1 := by omega
      simp only [List.filter_cons, hlt, hlt', hne, decide_true, decide_false, Bool.false_eq_true,
        if_true, if_false, List.cons_append, ih]
    · -- All later keys are at least `n`, so the first filter keeps none of them.
      have hnone : l.filter (fun a => key a < n) = [] := by
        rw [List.filter_eq_nil_iff]
        intro b hb
        have := hfirst b hb
        simp only [decide_eq_true_eq]
        omega
      rw [hnone, List.nil_append] at ih
      simp [heq, hnone, ih]
    · have hlt : ¬key a < n := by omega
      have hlt' : ¬key a < n + 1 := by omega
      have hne : key a ≠ n := by omega
      simp only [List.filter_cons, hlt, hlt', hne, decide_false, Bool.false_eq_true, if_false, ih]

/-- A sorted list is made of its elements with key 0, those with key 1, and so on. -/
theorem flatMap_filter_of_sorted {l : List α} (h : l.Pairwise fun a b => key a ≤ key b) (n : Nat) :
    (List.range n).flatMap (fun k => l.filter fun a => key a = k) =
      l.filter fun a => key a < n := by
  induction n with
  | zero => simp
  | succ n ih =>
    rw [List.range_succ, List.flatMap_append, ih, List.flatMap_singleton]
    exact filter_lt_append_filter_eq h n

theorem decide_le_trans (a b c : α) (hab : decide (key a ≤ key b) = true)
    (hbc : decide (key b ≤ key c) = true) : decide (key a ≤ key c) = true := by
  simp only [decide_eq_true_eq] at hab hbc ⊢
  exact Nat.le_trans hab hbc

theorem decide_le_total (a b : α) :
    (decide (key a ≤ key b) || decide (key b ≤ key a)) = true := by
  simp only [Bool.or_eq_true, decide_eq_true_eq]
  exact Nat.le_total _ _

/-- Sorting does not touch the order of elements with one key. -/
theorem filter_mergeSort (l : List α) (k : Nat) :
    (l.mergeSort fun a b => key a ≤ key b).filter (fun a => key a = k) =
      l.filter fun a => key a = k := by
  have hpairwise : (l.filter fun a => key a = k).Pairwise fun a b => decide (key a ≤ key b) := by
    refine List.pairwise_of_forall_mem_list fun a ha b hb => ?_
    simp only [List.mem_filter, decide_eq_true_eq] at ha hb ⊢
    omega
  have hsublist := List.sublist_mergeSort decide_le_trans decide_le_total hpairwise
    List.filter_sublist
  have hfilter := hsublist.filter fun a => key a = k
  simp only [List.filter_filter, Bool.and_self] at hfilter
  have hperm := (List.mergeSort_perm l fun a b => decide (key a ≤ key b)).filter fun a => key a = k
  exact (hfilter.eq_of_length hperm.length_eq.symm).symm

/-- The elements with key 0, those with key 1, and so on are the sorted list. -/
theorem flatMap_filter_eq (l : List α) (n : Nat) :
    (List.range n).flatMap (fun k => l.filter fun a => key a = k) =
      (l.mergeSort fun a b => key a ≤ key b).filter fun a => key a < n := by
  have hsorted : (l.mergeSort fun a b => key a ≤ key b).Pairwise fun a b =>
      decide (key a ≤ key b) = true :=
    List.pairwise_mergeSort decide_le_trans decide_le_total l
  simp only [decide_eq_true_eq] at hsorted
  rw [← flatMap_filter_of_sorted hsorted]
  simp only [filter_mergeSort]

end

/-! ## Acts -/

/-- What a session does at one moment. -/
inductive Act
  /-- A scripted event is applied in a frame. -/
  | key (frame : Nat) (e : ScriptedKey)
  | tick
  | step (count : Nat)
  | pause
deriving DecidableEq

/-- The event applied, if the act applies one. -/
def Act.key? : Act → Option ScriptedKey
  | key _ e => some e
  | _ => none

/-- What an event asks of the machine. -/
def ScriptedKey.command (e : ScriptedKey) : Command :=
  if e.pressed then .press (some e.key) else .release (some e.key)

namespace Settings

/-- A frame: its events in the order in which they are listed, a tick, a batch, and a pause. -/
def frameActs (s : Settings) (frame : Nat) : List Act :=
  (s.scriptAt frame).map (.key frame) ++ [.tick, .step s.stepsPerFrame.toNat, .pause]

/-- All frames one after the other. -/
def acts (s : Settings) : List Act := (List.range s.frames.toNat).flatMap s.frameActs

/-- The events of the frames that are played, in the order in which they are applied. -/
theorem flatMap_scriptAt (s : Settings) :
    (List.range s.frames.toNat).flatMap s.scriptAt =
      (s.keys.mergeSort fun a b => a.frame.toNat ≤ b.frame.toNat).filter
        fun e => e.frame.toNat < s.frames.toNat :=
  flatMap_filter_eq s.keys s.frames.toNat

theorem filterMap_key?_frameActs (s : Settings) (frame : Nat) :
    (s.frameActs frame).filterMap Act.key? = s.scriptAt frame := by
  rw [frameActs, List.filterMap_append, List.filterMap_map]
  have hkeys : Act.key? ∘ Act.key frame = some := rfl
  rw [hkeys, List.filterMap_some]
  exact List.append_nil _

theorem filterMap_key?_acts (s : Settings) :
    s.acts.filterMap Act.key? = (List.range s.frames.toNat).flatMap s.scriptAt := by
  rw [acts, List.filterMap_flatMap]
  simp only [filterMap_key?_frameActs]

/-- The acts are known from what is scheduled for the frames that are played. -/
theorem acts_congr {s t : Settings} (hframes : s.frames = t.frames)
    (hsteps : s.stepsPerFrame = t.stepsPerFrame)
    (hscript : ∀ f < s.frames.toNat, s.scriptAt f = t.scriptAt f) : s.acts = t.acts := by
  rw [acts, acts, ← hframes]
  refine List.flatMap_congr fun f hf => ?_
  rw [frameActs, frameActs, hscript f (List.mem_range.1 hf), hsteps]

end Settings

namespace Session

variable {μ : Type → Type} [Monad μ]

/-- Carries out an act. An event is reported and then asked of the machine. -/
def act (pause : μ Unit) (s : Session) : Act → μ Session
  | .key frame e =>
    let reported := { s with log := s.log.push (.scripted frame e.key e.pressed) }
    pure (reported.perform e.command)
  | .tick => pure (s.perform .tick)
  | .step n => pure (s.perform (.step n))
  | .pause => do
    pause
    pure s

variable [LawfulMonad μ] (settings : Settings) (pause : μ Unit)

theorem foldlM_frameActs (frame : Nat) (s : Session) :
    (settings.frameActs frame).foldlM (act pause) s =
      (do pause; pure (s.playFrame settings frame)) := by
  have hkeys (es : List ScriptedKey) (s : Session) :
      (es.map (.key frame)).foldlM (act pause) s =
        pure (es.foldl (fun s e => s.apply frame e) s) := by
    rw [List.foldlM_map]
    exact List.foldlM_pure ..
  rw [Settings.frameActs, List.foldlM_append, hkeys, pure_bind]
  simp only [List.foldlM_cons, List.foldlM_nil, act, pure_bind, bind_pure]
  rfl

/-- Playing frames is carrying out their acts. -/
theorem foldlM_acts (frame count : Nat) (s : Session) :
    ((List.range' frame count).flatMap settings.frameActs).foldlM (act pause) s =
      playFrom settings pause frame count s := by
  induction count generalizing frame s with
  | zero => rfl
  | succ count ih =>
    rw [List.range'_succ, List.flatMap_cons, List.foldlM_append, foldlM_frameActs, bind_assoc]
    simp only [pure_bind, ih]
    rfl

/-- What a session does to the machine does not depend on how long it pauses. -/
theorem playFrom_eq (frame count : Nat) (s : Session) :
    playFrom settings pause frame count s = (do
      forM (List.range' frame count) fun _ => pause
      pure ((List.range' frame count).foldl (fun s f => s.playFrame settings f) s)) := by
  induction count generalizing frame s with
  | zero => simp [playFrom]
  | succ count ih =>
    rw [playFrom, List.range'_succ, List.forM_cons, List.foldl_cons, bind_assoc]
    simp only [ih]

/-- A session waits once for each frame, and leads where it would lead without waiting. -/
theorem run_eq (m : Machine) :
    run settings pause m = (do
      (List.range settings.frames.toNat).forM fun _ => pause
      pure (run settings (pure () : Id Unit) m).run) := by
  have hend : (run settings (pure () : Id Unit) m).run =
      ((List.range settings.frames.toNat).foldl (fun s f => s.playFrame settings f)
        { machine := m }, settings.frames) := by
    rw [run, play, playFrom_eq, ← List.range_eq_range']
    rfl
  rw [run, play, playFrom_eq, ← List.range_eq_range', bind_assoc, hend]
  simp only [pure_bind]
  rfl

end Session

/-- **A script is played in the order of its frames.** A session is, for one frame after the other,
the events listed for it, a tick, a batch and a pause. It applies the events of the frames that are
played, each once and in the order of a stable sort of the list by frame, and no others. Scripts
that list the same for each of these frames play the same session, whatever they list for later
ones. -/
theorem script_played_in_order {μ : Type → Type} [Monad μ] [LawfulMonad μ] (settings : Settings)
    (pause : μ Unit) (m : Machine) :
    Session.run settings pause m = (do
        let s ← settings.acts.foldlM (Session.act pause) { machine := m }
        pure (s, settings.frames)) ∧
      settings.acts.filterMap Act.key? =
        (settings.keys.mergeSort fun a b => a.frame.toNat ≤ b.frame.toNat).filter
          (fun e => e.frame.toNat < settings.frames.toNat) ∧
      ∀ other : Settings, settings.frames = other.frames →
        settings.stepsPerFrame = other.stepsPerFrame →
        (∀ f < settings.frames.toNat, settings.scriptAt f = other.scriptAt f) →
        Session.run settings pause m = Session.run other pause m := by
  have hrun (settings : Settings) : Session.run settings pause m = (do
      let s ← settings.acts.foldlM (Session.act pause) { machine := m }
      pure (s, settings.frames)) := by
    rw [Session.run, Session.play, ← Session.foldlM_acts, ← List.range_eq_range']
    rfl
  refine ⟨hrun settings, ?_, ?_⟩
  · rw [Settings.filterMap_key?_acts, Settings.flatMap_scriptAt]
  · intro other hframes hsteps hscript
    rw [hrun, hrun, Settings.acts_congr hframes hsteps hscript, hframes]

/-- Three frames of two instructions. The events are not listed in the order of their frames, and
the last one comes too late. -/
def shuffledScript : Settings where
  frames := 3
  stepsPerFrame := 2
  keys := [⟨2, ⟨7⟩, false⟩, ⟨1, ⟨7⟩, true⟩, ⟨2, ⟨8⟩, true⟩, ⟨3, ⟨9⟩, true⟩]

/-- A key wait gets key 7 in frame 1. Without the event that comes too late, and with the others in
order, the session is the same; it pauses three times. -/
theorem script_played_in_order_shuffled :
    let program : List UInt8 := [0xF3, 0x0A, 0x12, 0x02]
    let m := ((Machine.new (some 7) default).perform (.load program default)).machine
    let pause : StateM Nat Unit := modify (· + 1)
    let sorted := { shuffledScript with
      keys := [⟨1, ⟨7⟩, true⟩, ⟨2, ⟨7⟩, false⟩, ⟨2, ⟨8⟩, true⟩] }
    Session.run shuffledScript pause m = Session.run sorted pause m ∧
      ((Session.run sorted pause m).run 0).2 = 3 ∧
      ((Session.run sorted pause m).run 0).1.1.machine.state.reg 3 = 7 ∧
      (shuffledScript.keys.mergeSort fun a b => a.frame.toNat ≤ b.frame.toNat).filter
        (fun e => e.frame.toNat < 3) = sorted.keys := by
  intro program m pause sorted
  obtain ⟨-, hkeys, hcongr⟩ := script_played_in_order shuffledScript pause m
  refine ⟨hcongr sorted rfl rfl (by decide), by decide +kernel, by decide +kernel, ?_⟩
  have happlied : shuffledScript.acts.filterMap Act.key? = sorted.keys := by decide
  rw [← happlied, hkeys]
  rfl

end ChipEight
