import ChipEight.Proofs.KeyCodes
import ChipEight.Settings.Decode
import Mathlib.Data.List.Forall2
import Mathlib.Tactic.MkIffOfInductiveProp

/-!
# Settings that a mapping describes

What the entries of a mapping say about settings, without the order in which they are read
(`Describes`): for each field the values that are given for its name, and a default where there is
none. The decoder reads the entries one after the other into a draft and stops at the first fault.
It accepts just the settings that the entries describe (`ofNode_mapping_eq_ok_iff`).
-/

set_option autoImplicit false

namespace ChipEight

open Yaml (Node Scalar Document Token)

/-! ## What a document says -/

/-- The integer that a scalar stands for, if it does. -/
def Yaml.Value.toInt? : Yaml.Value → Option Int
  | natural n => some n
  | negative n => some (-n)
  | _ => none

namespace Settings

/-- The value that an entry gives for a name. -/
def valueFor? (name : String) (entry : Node × Node) : Option Node :=
  match entry with
  | (.scalar k, v) => if k.text = name then some v else none
  | _ => none

/-- The values that a mapping gives for a name. -/
def given (name : String) (entries : List (Node × Node)) : List Node :=
  entries.filterMap (valueFor? name)

/-- All entries have a name. -/
def AllNamed (entries : List (Node × Node)) : Prop := ∀ e ∈ entries, ∃ k, e.1 = .scalar k

/-- An integer from 0 to `2 ^ 64 - 1`, written without a minus sign. -/
def IsWord (n : Node) (w : UInt64) : Prop := ∃ s, n = .scalar s ∧ s.value = .natural w.toNat

def IsFlag (n : Node) (b : Bool) : Prop := ∃ s, n = .scalar s ∧ s.value = .boolean b

def IsSeed (n : Node) : Option UInt64 → Prop
  | some w => IsWord n w
  | none => ∃ s, n = .scalar s ∧ (s.value = .empty ∨ s.value = .null)

/-- An integer that is the code of a key. -/
def IsKey (n : Node) (k : Key) : Prop :=
  ∃ s, n = .scalar s ∧ s.value.toInt? = some ((k.code : Nat) : Int)

/-- A mapping gives one value for a name, and the value is of the right type. -/
def Gives {α : Type} (name : String) (is : Node → α → Prop) (entries : List (Node × Node))
    (a : α) : Prop :=
  ∃ v, given name entries = [v] ∧ is v a

/-- A mapping gives one value for a name, or none, and then the default stands. -/
def GivesOr {α : Type} (name : String) (is : Node → α → Prop) (default : α)
    (entries : List (Node × Node)) (a : α) : Prop :=
  Gives name is entries a ∨ given name entries = [] ∧ a = default

/-- The entries describe a key event: none of its fields may be left out. -/
@[mk_iff]
structure DescribesEvent (entries : List (Node × Node)) (e : ScriptedKey) : Prop where
  named : AllNamed entries
  frame : Gives "frame" IsWord entries e.frame
  key : Gives "key" IsKey entries e.key
  pressed : Gives "pressed" IsFlag entries e.pressed

def IsEvent (n : Node) (e : ScriptedKey) : Prop :=
  ∃ entries, n = .mapping entries ∧ DescribesEvent entries e

/-- A sequence of events, or an empty value, which stands for no events. -/
def IsEvents (n : Node) (es : List ScriptedKey) : Prop :=
  (∃ items, n = .sequence items ∧ List.Forall₂ IsEvent items es) ∨
    ∃ s, n = .scalar s ∧ s.value = .empty ∧ es = []

/-- The entries describe settings: what they leave out has its default. -/
@[mk_iff]
structure Describes (entries : List (Node × Node)) (s : Settings) : Prop where
  named : AllNamed entries
  frames : GivesOr "frames" IsWord 600 entries s.frames
  stepsPerFrame : GivesOr "steps_per_frame" IsWord 10 entries s.stepsPerFrame
  throttle : GivesOr "throttle" IsFlag true entries s.throttle
  seed : GivesOr "rng_seed" IsSeed none entries s.seed
  keys : GivesOr "keys" IsEvents [] entries s.keys

/-! ## Values -/

theorem bind_eq_ok_iff {α β : Type} {x : Decoded α} {f : α → Decoded β} {b : β} :
    (x >>= f) = .ok b ↔ ∃ a, x = .ok a ∧ f a = .ok b := by
  cases x <;> simp [bind, Except.bind]

theorem map_eq_ok_iff {α β : Type} {x : Decoded α} {f : α → β} {b : β} :
    x.map f = .ok b ↔ ∃ a, x = .ok a ∧ f a = b := by
  cases x <;> simp [Except.map]

theorem wrongType_ne_ok {α : Type} {path : Path} {n : Node} {expected : String} {a : α} :
    wrongType path n expected ≠ .ok a := by
  cases n <;> exact fun h => nomatch h

theorem decodeWord_eq_ok_iff {expected : String} {path : Path} {n : Node} {w : UInt64} :
    decodeWord expected path n = .ok w ↔ IsWord n w := by
  cases n with
  | scalar s =>
    cases hvalue : s.value with
    | natural k =>
      have hword : IsWord (.scalar s) w ↔ k = w.toNat := by simp [IsWord, hvalue]
      have hpow : 1 <<< 64 = 2 ^ 64 := rfl
      simp only [decodeWord, hvalue, hword, hpow]
      split
      · next hk =>
        rw [Except.ok.injEq, ← UInt64.toNat_inj, UInt64.toNat_ofNat', Nat.mod_eq_of_lt hk]
      · next hk => exact ⟨fun h => absurd h wrongType_ne_ok, fun h => absurd (h ▸ w.toNat_lt) hk⟩
    | _ => simp [decodeWord, IsWord, hvalue, wrongType_ne_ok]
  | _ => simp [decodeWord, IsWord, wrongType_ne_ok]

theorem decodeFlag_eq_ok_iff {path : Path} {n : Node} {b : Bool} :
    decodeFlag path n = .ok b ↔ IsFlag n b := by
  cases n with
  | scalar s => cases hvalue : s.value <;> simp [decodeFlag, IsFlag, hvalue, wrongType_ne_ok]
  | _ => simp [decodeFlag, IsFlag, wrongType_ne_ok]

theorem decodeSeed_eq_ok_iff {path : Path} {n : Node} {o : Option UInt64} :
    decodeSeed path n = .ok o ↔ IsSeed n o := by
  have hword : (decodeWord "u64" path n).map some = .ok o ↔ ∃ w, IsWord n w ∧ some w = o := by
    simp only [map_eq_ok_iff, decodeWord_eq_ok_iff]
  cases n with
  | scalar s =>
    cases hvalue : s.value with
    | empty | null => cases o <;> simp [decodeSeed, IsSeed, IsWord, hvalue]
    | _ =>
      simp only [decodeSeed, hvalue, hword]
      cases o <;> simp [IsSeed, IsWord, hvalue]
  | _ =>
    simp only [decodeSeed, hword]
    cases o <;> simp [IsSeed, IsWord]

theorem signed?_eq_some_iff {n : Node} {v : Int64} :
    signed? n = some v ↔ ∃ s, n = .scalar s ∧ s.value.toInt? = some v.toInt := by
  have hlo := v.le_toInt
  have hhi := v.toInt_lt
  have hpow : 1 <<< 63 = 2 ^ 63 := rfl
  cases n with
  | scalar s =>
    cases hvalue : s.value with
    | natural k =>
      simp only [signed?, hvalue, hpow, Node.scalar.injEq, exists_eq_left', Yaml.Value.toInt?,
        Option.some.injEq]
      split
      · next hk => rw [Option.some.injEq, ← Int64.toInt_inj, Int64.toInt_ofNat_of_lt hk]
      · next hk => exact ⟨nofun, fun h => absurd (by omega) hk⟩
    | negative k =>
      simp only [signed?, hvalue, hpow, Node.scalar.injEq, exists_eq_left', Yaml.Value.toInt?,
        Option.some.injEq]
      split
      · next hk =>
        rw [Option.some.injEq, ← Int64.toInt_inj, Int64.toInt_ofInt_of_le (by omega) (by omega)]
      · next hk => exact ⟨nofun, fun h => absurd (by omega) hk⟩
    | _ => simp [signed?, hvalue, Yaml.Value.toInt?]
  | _ => simp [signed?]

theorem decodeKey_eq_ok_iff {path : Path} {n : Node} {k : Key} :
    decodeKey path n = .ok k ↔ IsKey n k := by
  have hk := k.code.isLt
  unfold decodeKey
  split
  · next v hv =>
    obtain ⟨s, rfl, hs⟩ := signed?_eq_some_iff.1 hv
    have hkey : IsKey (.scalar s) k ↔ v.toInt = (k.code : Nat) := by simp [IsKey, hs]
    rw [hkey, ← Key.ofInteger_eq_ok_iff, ← Key.ofInt64_eq]
    cases Key.ofInt64 v <;> simp [Except.mapError]
  · next hnone =>
    refine ⟨fun h => absurd h wrongType_ne_ok, fun ⟨s, hn, hs⟩ => ?_⟩
    have hsome : signed? n = some (Int64.ofInt (k.code : Nat)) := by
      rw [signed?_eq_some_iff, Int64.toInt_ofInt_of_le (by omega) (by omega)]
      exact ⟨s, hn, hs⟩
    rw [hsome] at hnone
    cases hnone

/-! ## Entries -/

/-- From `old` to `new` a field takes the given values one after the other. It takes no second
one. -/
def Takes {α : Type} (is : Node → α → Prop) (old : Option α) : List Node → Option α → Prop
  | [], new => new = old
  | v :: vs, new => old = none ∧ ∃ a, is v a ∧ Takes is (some a) vs new

theorem takes_none_iff {α : Type} {is : Node → α → Prop} {vs : List Node} {new : Option α} :
    Takes is none vs new ↔ (vs = [] ∧ new = none) ∨ ∃ v a, vs = [v] ∧ is v a ∧ new = some a := by
  match vs with
  | [] => simp [Takes]
  | [v] => simp [Takes]
  | v :: v' :: vs => simp [Takes]

theorem given_cons (name : String) (k : Scalar) (v : Node) (entries : List (Node × Node)) :
    given name ((.scalar k, v) :: entries) =
      if k.text = name then v :: given name entries else given name entries := by
  by_cases h : k.text = name <;> simp [given, valueFor?, h]

theorem allNamed_cons (k : Scalar) (v : Node) (entries : List (Node × Node)) :
    AllNamed ((.scalar k, v) :: entries) ↔ AllNamed entries := by
  simp [AllNamed]

theorem not_allNamed_cons {n v : Node} {entries : List (Node × Node)} (hn : ∀ k, n ≠ .scalar k) :
    ¬AllNamed ((n, v) :: entries) := by
  intro h
  obtain ⟨k, hk⟩ := h _ List.mem_cons_self
  exact hn k hk

section

variable {σ α : Type} {path : Path} {field : σ → String → Option (Node → Decoded σ)}
  {k : Scalar} {n v : Node} {entries : List (Node × Node)} {d d' : σ}

/-- An entry for a known field. -/
theorem decodeEntries_known {old : Option α} {read : Path → Node → Decoded α}
    {is : Node → α → Prop} (set : Option α → σ)
    (hfield : field d k.text = some fun v => do pure (set (← once path k.text old read v)))
    (hread : ∀ a, read (path ++ [.field k.text]) v = .ok a ↔ is v a) :
    decodeEntries path field ((.scalar k, v) :: entries) d = .ok d' ↔
      old = none ∧ ∃ a, is v a ∧ decodeEntries path field entries (set (some a)) = .ok d' := by
  rw [decodeEntries, hfield]
  cases old with
  | some a => simp [once, bind, Except.bind]
  | none =>
    simp only [once, bind_eq_ok_iff, map_eq_ok_iff, hread]
    simp [pure, Except.pure]

/-- An entry for an unknown field, whose value may be anything. -/
theorem decodeEntries_unknown (hfield : field d k.text = none) (hv : v.isWhole = true) :
    decodeEntries path field ((.scalar k, v) :: entries) d =
      decodeEntries path field entries d := by
  rw [decodeEntries, hfield]
  simp [hv]

theorem decodeEntries_unnamed (hn : ∀ k, n ≠ .scalar k) :
    decodeEntries path field ((n, v) :: entries) d ≠ .ok d' := by
  cases n with
  | scalar k => exact absurd rfl (hn k)
  | _ => exact wrongType_ne_ok

end

theorem whole_of_cons {n v : Node} {entries : List (Node × Node)}
    (h : Node.entriesWhole ((n, v) :: entries) = true) :
    v.isWhole = true ∧ Node.entriesWhole entries = true := by
  simp only [Node.entriesWhole, Bool.and_eq_true] at h
  exact ⟨h.1.2, h.2⟩

/-! ## Events -/

theorem decodeEntries_eventField {path : Path} {entries : List (Node × Node)}
    (hwhole : Node.entriesWhole entries = true) {d d' : EventDraft} :
    decodeEntries path (eventField path) entries d = .ok d' ↔
      AllNamed entries ∧ Takes IsWord d.frame (given "frame" entries) d'.frame ∧
        Takes IsKey d.key (given "key" entries) d'.key ∧
        Takes IsFlag d.pressed (given "pressed" entries) d'.pressed := by
  induction entries generalizing d with
  | nil =>
    obtain ⟨frame, key, pressed⟩ := d
    obtain ⟨frame', key', pressed'⟩ := d'
    simp [decodeEntries, AllNamed, given, Takes, eq_comm]
  | cons entry entries ih =>
    obtain ⟨n, v⟩ := entry
    obtain ⟨hv, hrest⟩ := whole_of_cons hwhole
    have ih := fun d => ih hrest (d := d)
    cases n with
    | scalar k =>
      obtain ⟨text, plain⟩ := k
      simp only [given_cons, allNamed_cons]
      by_cases hframe : text = "frame"
      · subst hframe
        rw [decodeEntries_known (fun o => { d with frame := o }) rfl
          fun _ => decodeWord_eq_ok_iff]
        simp only [ih, Takes, if_true, String.reduceEq, if_false]
        grind
      by_cases hkey : text = "key"
      · subst hkey
        rw [decodeEntries_known (fun o => { d with key := o }) rfl
          fun _ => decodeKey_eq_ok_iff]
        simp only [ih, Takes, if_true, String.reduceEq, if_false]
        grind
      by_cases hpressed : text = "pressed"
      · subst hpressed
        rw [decodeEntries_known (fun o => { d with pressed := o }) rfl
          fun _ => decodeFlag_eq_ok_iff]
        simp only [ih, Takes, if_true, String.reduceEq, if_false]
        grind
      have hfield : eventField path d text = none := by
        unfold eventField
        split <;> first | rfl | contradiction
      rw [decodeEntries_unknown hfield hv, ih, if_neg hframe, if_neg hkey, if_neg hpressed]
    | _ =>
      exact ⟨fun h => absurd h (decodeEntries_unnamed nofun),
        fun h => absurd h.1 (not_allNamed_cons nofun)⟩

theorem finish_eq_ok_iff {path : Path} {d : EventDraft} {e : ScriptedKey} :
    d.finish path = .ok e ↔
      d.frame = some e.frame ∧ d.key = some e.key ∧ d.pressed = some e.pressed := by
  obtain ⟨frame, key, pressed⟩ := d
  obtain ⟨frame', key', pressed'⟩ := e
  cases frame <;> cases key <;> cases pressed <;> simp [EventDraft.finish]

theorem takes_some_iff {α : Type} {is : Node → α → Prop} {name : String}
    {entries : List (Node × Node)} {a : α} :
    Takes is none (given name entries) (some a) ↔ Gives name is entries a := by
  simp [takes_none_iff, Gives]

theorem decodeEvent_eq_ok_iff {path : Path} {n : Node} (hn : n.isWhole = true) {e : ScriptedKey} :
    decodeEvent path n = .ok e ↔ IsEvent n e := by
  cases n with
  | mapping entries =>
    have hwhole : Node.entriesWhole entries = true := hn
    have hevent : IsEvent (.mapping entries) e ↔ DescribesEvent entries e := by simp [IsEvent]
    simp only [decodeEvent, decodeMapping, bind_eq_ok_iff, decodeEntries_eventField hwhole,
      finish_eq_ok_iff, hevent]
    constructor
    · rintro ⟨d, ⟨hnamed, hframe, hkey, hpressed⟩, hd⟩
      rw [hd.1, takes_some_iff] at hframe
      rw [hd.2.1, takes_some_iff] at hkey
      rw [hd.2.2, takes_some_iff] at hpressed
      exact ⟨hnamed, hframe, hkey, hpressed⟩
    · intro h
      exact ⟨⟨some e.frame, some e.key, some e.pressed⟩, ⟨h.named, takes_some_iff.2 h.frame,
        takes_some_iff.2 h.key, takes_some_iff.2 h.pressed⟩, rfl, rfl, rfl⟩
  | scalar s =>
    have hnot : ¬IsEvent (.scalar s) e := fun ⟨_, h, _⟩ => nomatch h
    refine ⟨fun h => ?_, fun h => absurd h hnot⟩
    obtain ⟨d, hd, hfinish⟩ := bind_eq_ok_iff.1 h
    rw [decodeMapping] at hd
    split at hd
    · cases hd
      cases (finish_eq_ok_iff.1 hfinish).1
    · exact absurd hd wrongType_ne_ok
  | _ =>
    refine ⟨fun h => ?_, fun ⟨_, h, _⟩ => nomatch h⟩
    obtain ⟨d, hd, -⟩ := bind_eq_ok_iff.1 h
    simp [decodeMapping, wrongType_ne_ok] at hd

theorem decodeItems_eq_ok_iff {path : Path} {i : Nat} {ns : List Node}
    (hns : Node.allWhole ns = true) {es : List ScriptedKey} :
    decodeItems path i ns = .ok es ↔ List.Forall₂ IsEvent ns es := by
  induction ns generalizing i es with
  | nil => simp [decodeItems, eq_comm]
  | cons n ns ih =>
    simp only [Node.allWhole, Bool.and_eq_true] at hns
    simp only [decodeItems, bind_eq_ok_iff, decodeEvent_eq_ok_iff hns.1, ih hns.2,
      List.forall₂_cons_left_iff]
    simp [pure, Except.pure, eq_comm]

theorem decodeEvents_eq_ok_iff {path : Path} {n : Node} (hn : n.isWhole = true)
    {es : List ScriptedKey} : decodeEvents path n = .ok es ↔ IsEvents n es := by
  cases n with
  | sequence items =>
    have hitems : Node.allWhole items = true := hn
    simp [decodeEvents, decodeItems_eq_ok_iff hitems, IsEvents]
  | scalar s =>
    by_cases hs : s.value = .empty
    · simp [decodeEvents, IsEvents, hs, eq_comm]
    · simp [decodeEvents, IsEvents, hs, wrongType_ne_ok]
  | _ => simp [decodeEvents, IsEvents, wrongType_ne_ok]

/-! ## Settings -/

theorem decodeEntries_field {entries : List (Node × Node)}
    (hwhole : Node.entriesWhole entries = true) {d d' : Draft} :
    decodeEntries [] field entries d = .ok d' ↔
      AllNamed entries ∧ Takes IsWord d.frames (given "frames" entries) d'.frames ∧
        Takes IsWord d.stepsPerFrame (given "steps_per_frame" entries) d'.stepsPerFrame ∧
        Takes IsFlag d.throttle (given "throttle" entries) d'.throttle ∧
        Takes IsSeed d.seed (given "rng_seed" entries) d'.seed ∧
        Takes IsEvents d.keys (given "keys" entries) d'.keys := by
  induction entries generalizing d with
  | nil =>
    obtain ⟨frames, steps, throttle, seed, keys⟩ := d
    obtain ⟨frames', steps', throttle', seed', keys'⟩ := d'
    simp [decodeEntries, AllNamed, given, Takes, eq_comm]
  | cons entry entries ih =>
    obtain ⟨n, v⟩ := entry
    obtain ⟨hv, hrest⟩ := whole_of_cons hwhole
    have ih := fun d => ih hrest (d := d)
    cases n with
    | scalar k =>
      obtain ⟨text, plain⟩ := k
      simp only [given_cons, allNamed_cons]
      by_cases hframes : text = "frames"
      · subst hframes
        rw [decodeEntries_known (fun o => { d with frames := o }) rfl
          fun _ => decodeWord_eq_ok_iff]
        simp only [ih, Takes, if_true, String.reduceEq, if_false]
        grind
      by_cases hsteps : text = "steps_per_frame"
      · subst hsteps
        rw [decodeEntries_known (fun o => { d with stepsPerFrame := o }) rfl
          fun _ => decodeWord_eq_ok_iff]
        simp only [ih, Takes, if_true, String.reduceEq, if_false]
        grind
      by_cases hthrottle : text = "throttle"
      · subst hthrottle
        rw [decodeEntries_known (fun o => { d with throttle := o }) rfl
          fun _ => decodeFlag_eq_ok_iff]
        simp only [ih, Takes, if_true, String.reduceEq, if_false]
        grind
      by_cases hseed : text = "rng_seed"
      · subst hseed
        rw [decodeEntries_known (fun o => { d with seed := o }) rfl
          fun _ => decodeSeed_eq_ok_iff]
        simp only [ih, Takes, if_true, String.reduceEq, if_false]
        grind
      by_cases hkeys : text = "keys"
      · subst hkeys
        rw [decodeEntries_known (fun o => { d with keys := o }) rfl
          fun _ => decodeEvents_eq_ok_iff hv]
        simp only [ih, Takes, if_true, String.reduceEq, if_false]
        grind
      have hfield : field d text = none := by
        unfold field
        split <;> first | rfl | contradiction
      rw [decodeEntries_unknown hfield hv, ih, if_neg hframes, if_neg hsteps, if_neg hthrottle,
        if_neg hseed, if_neg hkeys]
    | _ =>
      exact ⟨fun h => absurd h (decodeEntries_unnamed nofun),
        fun h => absurd h.1 (not_allNamed_cons nofun)⟩

/-- A field that takes what is given, and has a default. -/
theorem givesOr_iff {α : Type} {is : Node → α → Prop} {name : String} {default : α}
    {entries : List (Node × Node)} {a : α} :
    GivesOr name is default entries a ↔
      ∃ o, Takes is none (given name entries) o ∧ a = o.getD default := by
  simp only [takes_none_iff, GivesOr, Gives]
  constructor
  · rintro (⟨v, hv, ha⟩ | ⟨hnone, rfl⟩)
    · exact ⟨some a, .inr ⟨v, a, hv, ha, rfl⟩, rfl⟩
    · exact ⟨none, .inl ⟨hnone, rfl⟩, rfl⟩
  · rintro ⟨_, ⟨hnone, rfl⟩ | ⟨v, b, hv, hb, rfl⟩, rfl⟩
    · exact .inr ⟨hnone, rfl⟩
    · exact .inl ⟨v, hv, hb⟩

/-- Settings are decoded from the entries that describe them. -/
theorem ofNode_mapping_eq_ok_iff {entries : List (Node × Node)}
    (hwhole : Node.entriesWhole entries = true) {s : Settings} :
    ofNode (.mapping entries) = .ok s ↔ Describes entries s := by
  rw [ofNode, map_eq_ok_iff]
  simp only [decodeMapping, decodeEntries_field hwhole]
  constructor
  · rintro ⟨d, ⟨hnamed, hframes, hsteps, hthrottle, hseed, hkeys⟩, rfl⟩
    exact ⟨hnamed, givesOr_iff.2 ⟨_, hframes, rfl⟩, givesOr_iff.2 ⟨_, hsteps, rfl⟩,
      givesOr_iff.2 ⟨_, hthrottle, rfl⟩, givesOr_iff.2 ⟨_, hseed, rfl⟩,
      givesOr_iff.2 ⟨_, hkeys, rfl⟩⟩
  · rintro ⟨hnamed, hframes, hsteps, hthrottle, hseed, hkeys⟩
    obtain ⟨frames, hframes, hframes'⟩ := givesOr_iff.1 hframes
    obtain ⟨steps, hsteps, hsteps'⟩ := givesOr_iff.1 hsteps
    obtain ⟨throttle, hthrottle, hthrottle'⟩ := givesOr_iff.1 hthrottle
    obtain ⟨seed, hseed, hseed'⟩ := givesOr_iff.1 hseed
    obtain ⟨keys, hkeys, hkeys'⟩ := givesOr_iff.1 hkeys
    refine ⟨⟨frames, steps, throttle, seed, keys⟩,
      ⟨hnamed, hframes, hsteps, hthrottle, hseed, hkeys⟩, ?_⟩
    obtain ⟨f, p, t, r, ks⟩ := s
    simp only [Draft.finish, Settings.mk.injEq]
    exact ⟨hframes'.symm, hsteps'.symm, hthrottle'.symm, hseed'.symm, hkeys'.symm⟩

end Settings

end ChipEight
