import ChipEight.Machine
import ChipEight.Proofs.DescribedSettings
import ChipEight.Proofs.WholeTrees

/-!
# Decoding settings

Which documents are accepted and what is read from them (`settings_decoded_iff`), whatever reader
presents them: all that is asked of it is that it presents the text as a whole tree (`Presents`). A
document is accepted if its fields are well typed; fields that are unknown may have any value, and
the order of fields makes no difference, neither in the settings nor in their events.
-/

set_option autoImplicit false

namespace ChipEight

open Yaml (Node Scalar Document Token)

namespace Settings

/-! ## Well-typed fields -/

/-- A field is given at most once, and if it is, with a value of the right type. -/
def Typed {α : Type} (name : String) (is : Node → α → Prop) (entries : List (Node × Node)) :
    Prop :=
  (given name entries).length ≤ 1 ∧ ∀ v ∈ given name entries, ∃ a, is v a

/-- All entries have a name, and all fields that are there are well typed. -/
structure WellTyped (entries : List (Node × Node)) : Prop where
  named : AllNamed entries
  frames : Typed "frames" IsWord entries
  stepsPerFrame : Typed "steps_per_frame" IsWord entries
  throttle : Typed "throttle" IsFlag entries
  seed : Typed "rng_seed" IsSeed entries
  keys : Typed "keys" IsEvents entries

theorem typed_iff {α : Type} {is : Node → α → Prop} {name : String} (default : α)
    {entries : List (Node × Node)} :
    Typed name is entries ↔ ∃ a, GivesOr name is default entries a := by
  rw [Typed]
  match hgiven : given name entries with
  | [] => simp [GivesOr, Gives, hgiven]
  | [v] => simp [GivesOr, Gives, hgiven]
  | v :: v' :: vs => simp [GivesOr, Gives, hgiven]

theorem wellTyped_iff {entries : List (Node × Node)} :
    WellTyped entries ↔ ∃ s, Describes entries s := by
  constructor
  · intro h
    obtain ⟨frames, hframes⟩ := (typed_iff 600).1 h.frames
    obtain ⟨steps, hsteps⟩ := (typed_iff 10).1 h.stepsPerFrame
    obtain ⟨throttle, hthrottle⟩ := (typed_iff true).1 h.throttle
    obtain ⟨seed, hseed⟩ := (typed_iff none).1 h.seed
    obtain ⟨keys, hkeys⟩ := (typed_iff []).1 h.keys
    exact ⟨⟨frames, steps, throttle, seed, keys⟩,
      ⟨h.named, hframes, hsteps, hthrottle, hseed, hkeys⟩⟩
  · rintro ⟨s, h⟩
    exact ⟨h.named, (typed_iff 600).2 ⟨_, h.frames⟩, (typed_iff 10).2 ⟨_, h.stepsPerFrame⟩,
      (typed_iff true).2 ⟨_, h.throttle⟩, (typed_iff none).2 ⟨_, h.seed⟩,
      (typed_iff []).2 ⟨_, h.keys⟩⟩

/-! ## The same fields -/

/-- Two mappings give the same values for the names, up to `same`. Entries with other names make no
difference, nor does the order of entries. -/
structure SameFields (names : List String) (same : String → Node → Node → Prop)
    (entries entries' : List (Node × Node)) : Prop where
  named : AllNamed entries ↔ AllNamed entries'
  given : ∀ name ∈ names, ∃ vs, (given name entries).Perm vs ∧
    List.Forall₂ (same name) vs (given name entries')

def eventFieldNames : List String := ["frame", "key", "pressed"]

def fieldNames : List String := ["frames", "steps_per_frame", "throttle", "rng_seed", "keys"]

/-- The same node, or two mappings with the same fields of an event. -/
def SameEvent (n n' : Node) : Prop :=
  n = n' ∨ ∃ entries entries', n = .mapping entries ∧ n' = .mapping entries' ∧
    SameFields eventFieldNames (fun _ => Eq) entries entries'

/-- The same value, or two lists of the same events. -/
def SameValue (name : String) (v v' : Node) : Prop :=
  v = v' ∨ name = "keys" ∧ ∃ items items', v = .sequence items ∧ v' = .sequence items' ∧
    List.Forall₂ SameEvent items items'

namespace SameFields

variable {names : List String} {same : String → Node → Node → Prop}
  {entries entries' : List (Node × Node)} {name : String}

theorem given_eq_nil_iff (h : SameFields names same entries entries') (hname : name ∈ names) :
    Settings.given name entries = [] ↔ Settings.given name entries' = [] := by
  obtain ⟨vs, hperm, hsame⟩ := h.given name hname
  have hlength := hperm.length_eq.trans hsame.length_eq
  rw [← List.length_eq_zero_iff, ← List.length_eq_zero_iff, hlength]

theorem gives_iff (h : SameFields names same entries entries') (hname : name ∈ names) {α : Type}
    {is : Node → α → Prop} {a : α} (his : ∀ v v', same name v v' → (is v a ↔ is v' a)) :
    Gives name is entries a ↔ Gives name is entries' a := by
  obtain ⟨vs, hperm, hsame⟩ := h.given name hname
  constructor
  · rintro ⟨v, hv, ha⟩
    rw [hv, List.singleton_perm] at hperm
    obtain ⟨v', _, hvv, hnil, hv'⟩ := List.forall₂_cons_left_iff.1 (hperm ▸ hsame)
    obtain rfl := List.forall₂_nil_left_iff.1 hnil
    exact ⟨v', hv', (his v v' hvv).1 ha⟩
  · rintro ⟨v', hv', ha⟩
    rw [hv'] at hsame
    obtain ⟨v, _, hvv, hnil, rfl⟩ := List.forall₂_cons_right_iff.1 hsame
    obtain rfl := List.forall₂_nil_right_iff.1 hnil
    exact ⟨v, List.perm_singleton.1 hperm, (his v v' hvv).2 ha⟩

theorem givesOr_iff (h : SameFields names same entries entries') (hname : name ∈ names) {α : Type}
    {is : Node → α → Prop} {default a : α} (his : ∀ v v', same name v v' → (is v a ↔ is v' a)) :
    GivesOr name is default entries a ↔ GivesOr name is default entries' a := by
  rw [GivesOr, GivesOr, h.gives_iff hname his, h.given_eq_nil_iff hname]

end SameFields

theorem SameEvent.isEvent_iff {n n' : Node} (h : SameEvent n n') (e : ScriptedKey) :
    IsEvent n e ↔ IsEvent n' e := by
  obtain rfl | ⟨entries, entries', rfl, rfl, h⟩ := h
  · rfl
  · have hsame {α : Type} {is : Node → α → Prop} (name : String) (hname : name ∈ eventFieldNames)
        (a : α) : Gives name is entries a ↔ Gives name is entries' a :=
      h.gives_iff hname fun v v' hv => by rw [hv]
    simp only [IsEvent, Node.mapping.injEq, exists_eq_left', describesEvent_iff, h.named,
      hsame "frame" (by decide), hsame "key" (by decide), hsame "pressed" (by decide)]

theorem SameValue.isEvents_iff {v v' : Node} (h : SameValue "keys" v v') (es : List ScriptedKey) :
    IsEvents v es ↔ IsEvents v' es := by
  obtain rfl | ⟨-, items, items', rfl, rfl, h⟩ := h
  · rfl
  · have hitems : List.Forall₂ IsEvent items es ↔ List.Forall₂ IsEvent items' es := by
      induction h generalizing es with
      | nil => rfl
      | cons h _ ih => simp only [List.forall₂_cons_left_iff, h.isEvent_iff, ih]
    simp [IsEvents, hitems]

theorem SameFields.describes_congr {entries entries' : List (Node × Node)}
    (h : SameFields fieldNames SameValue entries entries') (s : Settings) :
    Describes entries s ↔ Describes entries' s := by
  have hsame {α : Type} {is : Node → α → Prop} {default : α} (name : String)
      (hname : name ∈ fieldNames) (hkeys : name ≠ "keys") (a : α) :
      GivesOr name is default entries a ↔ GivesOr name is default entries' a := by
    refine h.givesOr_iff hname fun v v' hv => ?_
    rw [hv.resolve_right fun h => hkeys h.1]
  have hkeys (es : List ScriptedKey) :
      GivesOr "keys" IsEvents [] entries es ↔ GivesOr "keys" IsEvents [] entries' es :=
    h.givesOr_iff (by decide) fun v v' hv => hv.isEvents_iff es
  simp only [describes_iff, h.named, hkeys, hsame "frames" (by decide) (by decide),
    hsame "steps_per_frame" (by decide) (by decide), hsame "throttle" (by decide) (by decide),
    hsame "rng_seed" (by decide) (by decide)]

theorem SameFields.of_perm {names : List String} {same : String → Node → Node → Prop}
    {entries entries' : List (Node × Node)} (h : entries.Perm entries')
    (hsame : ∀ name v, same name v v) : SameFields names same entries entries' where
  named := ⟨fun hn e he => hn e (h.mem_iff.2 he), fun hn e he => hn e (h.mem_iff.1 he)⟩
  given name _ := ⟨_, h.filterMap _, List.forall₂_same.2 fun v _ => hsame name v⟩

/-- An entry with another name makes no difference. -/
theorem SameFields.of_unknown {names : List String} {same : String → Node → Node → Prop}
    {k : Scalar} (hk : k.text ∉ names) (v : Node) (before after : List (Node × Node))
    (hsame : ∀ name v, same name v v) :
    SameFields names same (before ++ after) (before ++ (.scalar k, v) :: after) where
  named := by simp [AllNamed, or_imp, forall_and]
  given name hname := by
    have hne : k.text ≠ name := fun heq => hk (heq ▸ hname)
    refine ⟨_, .refl _, ?_⟩
    have hgiven : Settings.given name (before ++ (.scalar k, v) :: after) =
        Settings.given name (before ++ after) := by
      simp [Settings.given, valueFor?, hne]
    rw [hgiven]
    exact List.forall₂_same.2 fun v _ => hsame name v

/-! ## Texts -/

/-- A reader presents a text as a complete document whose root is a mapping with these entries, and
no part of it is missing. -/
structure Presents (reader : String → Document) (text : String) (entries : List (Node × Node)) :
    Prop where
  document : reader text = { root := some (.mapping entries), ended := true }
  whole : (Node.mapping entries).isWhole = true

/-- The reader of this library leaves nothing out of a document that it has read to its end. -/
theorem presents_ofText {text : String} {entries : List (Node × Node)}
    (h : Document.ofText text = { root := some (.mapping entries), ended := true }) :
    Presents .ofText text entries where
  document := h
  whole := by
    have hended : (Document.ofTokens (Token.scan text)).ended = true := congrArg Document.ended h
    exact Document.isWhole_root hended (congrArg Document.root h)

namespace Presents

variable {reader : String → Document} {text : String} {entries : List (Node × Node)}
  (h : Presents reader text entries)
include h

theorem parse_eq : parse reader text = ofNode (.mapping entries) := by
  rw [parse, h.document, ofDocument]
  cases hnode : ofNode (.mapping entries) <;> simp [hnode, bind, Except.bind, pure, Except.pure]

theorem parse_eq_ok_iff (s : Settings) : parse reader text = .ok s ↔ Describes entries s := by
  rw [h.parse_eq, ofNode_mapping_eq_ok_iff h.whole]

end Presents

/-- **Settings are decoded as a document describes them.** Let a reader present a text as a complete
document whose root is a mapping. It is accepted exactly if all entries are named and the known
fields, each given at most once, are well typed. Then each field given has its value, each other its
default, the events are those of the list in its order, and a machine with these settings has the
seed given. A text with the same fields in another order and with other unknown ones, also within
its events, is read in the same way. -/
theorem settings_decoded_iff {reader : String → Document} {text : String}
    {entries : List (Node × Node)} (h : Presents reader text entries) :
    ((∃ s, parse reader text = .ok s) ↔ WellTyped entries) ∧
      (∀ s, parse reader text = .ok s ↔ Describes entries s) ∧
      (∀ s, parse reader text = .ok s → ∀ entropy,
        GivesOr "rng_seed" IsSeed none entries (Machine.new s.seed entropy).seed) ∧
      (∀ text' entries', Presents reader text' entries' →
        SameFields fieldNames SameValue entries entries' →
        ∀ s, parse reader text' = .ok s ↔ parse reader text = .ok s) ∧
      (∀ entries', entries.Perm entries' → SameFields fieldNames SameValue entries entries') ∧
      ∀ before after k v, entries = before ++ after → k.text ∉ fieldNames →
        SameFields fieldNames SameValue entries (before ++ (.scalar k, v) :: after) := by
  have hsame (name : String) (v : Node) : SameValue name v v := .inl rfl
  refine ⟨?_, h.parse_eq_ok_iff, fun s hs _ => ((h.parse_eq_ok_iff s).1 hs).seed, ?_,
    fun _ hperm => .of_perm hperm hsame, ?_⟩
  · simp only [h.parse_eq_ok_iff, wellTyped_iff]
  · intro text' entries' h' hfields s
    rw [h.parse_eq_ok_iff, h'.parse_eq_ok_iff, hfields.describes_congr]
  · rintro before after k v rfl hk
    exact .of_unknown hk v before after hsame

def plain (text : String) : Node := .scalar ⟨text, true⟩

/-- The tokens of an entry that is made of two words. -/
def entryTokens (k v : String) : List Token :=
  [.key, .scalar ⟨k, true⟩, .value, .scalar ⟨v, true⟩]

def scripted : String := "keys:
- frame: 1
  key: -0
  pressed: true
"

/-- The same fields in another order, and two more. -/
def reordered : String := "keys:
- pressed: true
  a: x
  key: -0
  frame: 1
b:
"

/-- The code of a key may have a minus sign, and neither order nor further fields matter. -/
theorem settings_decoded_iff_reordered :
    let settings : Settings := { keys := [⟨1, ⟨0⟩, true⟩] }
    parse .ofText scripted = .ok settings ∧ parse .ofText reordered = .ok settings := by
  intro settings
  let event : List (Node × Node) :=
    [(plain "frame", plain "1"), (plain "key", plain "-0"), (plain "pressed", plain "true")]
  let event' : List (Node × Node) :=
    [(plain "pressed", plain "true"), (plain "a", plain "x"), (plain "key", plain "-0"),
      (plain "frame", plain "1")]
  let start : List Token := [.blockMappingStart, .key, .scalar ⟨"keys", true⟩, .value, .blockEntry,
    .blockMappingStart]
  have h : Presents .ofText scripted [(plain "keys", .sequence [.mapping event])] := by
    have hscan : Token.scan scripted = start ++ entryTokens "frame" "1" ++ entryTokens "key" "-0" ++
        entryTokens "pressed" "true" ++ [.blockEnd, .blockEnd, .streamEnd] := by decide +kernel
    refine presents_ofText ?_
    rw [Document.ofText, hscan]
    rfl
  have h' : Presents .ofText reordered
      [(plain "keys", .sequence [.mapping event']), (plain "b", plain "")] := by
    have hscan : Token.scan reordered = start ++ entryTokens "pressed" "true" ++
        entryTokens "a" "x" ++ entryTokens "key" "-0" ++ entryTokens "frame" "1" ++
        [.blockEnd, .key, .scalar ⟨"b", true⟩, .value, .blockEnd, .streamEnd] := by decide +kernel
    refine presents_ofText ?_
    rw [Document.ofText, hscan]
    rfl
  obtain ⟨-, hdecoded, -, hsame, -, -⟩ := settings_decoded_iff h
  have hevent : DescribesEvent event ⟨1, ⟨0⟩, true⟩ := by
    refine ⟨by simp [event, AllNamed, plain], ⟨_, rfl, _, rfl, ?_⟩, ⟨_, rfl, _, rfl, ?_⟩,
      ⟨_, rfl, _, rfl, ?_⟩⟩ <;> decide +kernel
  have hparse : parse .ofText scripted = .ok settings := by
    rw [hdecoded]
    have hkeys : IsEvents (.sequence [.mapping event]) settings.keys :=
      .inl ⟨_, rfl, .cons ⟨event, rfl, hevent⟩ .nil⟩
    exact ⟨by simp [AllNamed, plain], .inr ⟨rfl, rfl⟩, .inr ⟨rfl, rfl⟩, .inr ⟨rfl, rfl⟩,
      .inr ⟨rfl, rfl⟩, .inl ⟨_, rfl, hkeys⟩⟩
  have hevents : SameFields eventFieldNames (fun _ => Eq) event event' := by
    refine ⟨by simp [event, event', AllNamed, plain], fun name hname => ?_⟩
    simp only [eventFieldNames, List.mem_cons, List.not_mem_nil, or_false] at hname
    obtain rfl | rfl | rfl := hname <;> exact ⟨_, .refl _, .cons rfl .nil⟩
  refine ⟨hparse, (hsame _ _ h' ⟨by simp [AllNamed, plain], fun name hname => ?_⟩ _).2 hparse⟩
  simp only [fieldNames, List.mem_cons, List.not_mem_nil, or_false] at hname
  obtain rfl | rfl | rfl | rfl | rfl := hname
  · exact ⟨[], .nil, .nil⟩
  · exact ⟨[], .nil, .nil⟩
  · exact ⟨[], .nil, .nil⟩
  · exact ⟨[], .nil, .nil⟩
  · have hitems : SameEvent (.mapping event) (.mapping event') := .inr ⟨_, _, rfl, rfl, hevents⟩
    exact ⟨_, .refl _, .cons (.inr ⟨rfl, _, _, rfl, rfl, .cons hitems .nil⟩) .nil⟩

/-- Two documents without a fault of type that are refused: an integer may not have a minus sign
where it may not be negative, even if it is zero, and the name of an unknown field has to be a
scalar. -/
theorem refuses_negativeZero_and_sequenceName :
    (∃ s, Presents .ofText "frames: -0" [(plain "frames", .scalar s)] ∧
        s.value.toInt? = some 0) ∧
      (∀ s, parse .ofText "frames: -0" ≠ .ok s) ∧
      (∃ entries, Presents .ofText "[a]: 1" entries ∧
        ∀ name ∈ fieldNames, given name entries = []) ∧
      ∀ s, parse .ofText "[a]: 1" ≠ .ok s := by
  have hzero : Presents .ofText "frames: -0" [(plain "frames", plain "-0")] := by
    have hscan : Token.scan "frames: -0" =
        .blockMappingStart :: entryTokens "frames" "-0" ++ [.blockEnd, .streamEnd] := by
      decide +kernel
    refine presents_ofText ?_
    rw [Document.ofText, hscan]
    rfl
  have hsequence : Presents .ofText "[a]: 1" [(.sequence [plain "a"], plain "1")] := by
    have hscan : Token.scan "[a]: 1" = [.blockMappingStart, .key, .flowSequenceStart,
        .scalar ⟨"a", true⟩, .flowSequenceEnd, .value, .scalar ⟨"1", true⟩, .blockEnd,
        .streamEnd] := by decide +kernel
    refine presents_ofText ?_
    rw [Document.ofText, hscan]
    rfl
  refine ⟨⟨_, hzero, by decide +kernel⟩, fun s h => ?_,
    ⟨_, hsequence, by decide +kernel⟩, fun s h => ?_⟩
  · have hvalue : Yaml.Value.ofPlain "-0" = .negative 0 := by decide +kernel
    obtain ⟨v, hv, s, rfl, hs⟩ | ⟨hnone, -⟩ := ((hzero.parse_eq_ok_iff s).1 h).frames
    · obtain rfl : (⟨"-0", true⟩ : Scalar) = s := Node.scalar.inj (List.cons.inj hv).1
      cases hvalue.symm.trans hs
    · cases hnone
  · obtain ⟨k, hk⟩ := ((hsequence.parse_eq_ok_iff s).1 h).named _ List.mem_cons_self
    cases hk

end Settings

end ChipEight
