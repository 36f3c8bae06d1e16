import ChipEight.CommandLine
import ChipEight.Proofs.Cells
import ChipEight.Proofs.Lines
import ChipEight.Proofs.Pixels
import ChipEight.Proofs.Playback

/-!
# The outcome of the program

What the whole program prints and how it exits, for all arguments and files. A request fails at the
first stage that cannot be passed (`CommandLine.Fails`); if there is none, the machine that its
program and its settings lead to is printed, and the picture reads back as that machine's display
(`Display.Shown.ofLines_eq`). The outcome does not depend on whether frames keep pace with the
clock, nor on what the clock does (`outcome_of_arguments`). The reader of YAML and the entropy are
whatever the host has; of its logger it is assumed that it does not write to standard output.
-/

set_option autoImplicit false

namespace ChipEight

/-! ## Reading the picture back -/

namespace Display

/-- Lines begin with the picture of a display: 32 lines of 64 characters, `#` for a lit pixel and
`.` for a dark one. -/
def Shown (d : Display) (lines : List (List Char)) : Prop :=
  ∀ y < height, ∃ chars, lines[y]? = some chars ∧ chars.length = width ∧
    ∀ x < width, chars[x]? = some (if d.pixel x y then '#' else '.')

/-- The row of pixels that a line of a picture shows. -/
def rowOfLine (chars : List Char) : BitVec 64 :=
  (BitVec.ofBoolListBE (chars.map (· == '#'))).setWidth 64

/-- The display that the first lines show, `#` for a lit pixel. -/
def ofLines (lines : List (List Char)) : Display :=
  ⟨(Bank.fill 32 0#64).write 0 ((lines.take height).map rowOfLine)⟩

theorem getMsbD_rowOfLine {chars : List Char} (h : chars.length = width) {x : Nat} {c : Char}
    (hc : chars[x]? = some c) : (rowOfLine chars).getMsbD x = (c == '#') := by
  have hlength : (chars.map (· == '#')).length = 64 := by rw [List.length_map, h, width]
  rw [rowOfLine, BitVec.getMsbD_setWidth, BitVec.getMsbD_ofBoolListBE, hlength, Nat.sub_self,
    decide_eq_true (Nat.zero_le x), Bool.true_and, Nat.add_sub_cancel,
    List.getD_eq_getElem?_getD, List.getElem?_map, hc, Option.map_some, Option.getD_some]

theorem rows_ofLines {lines : List (List Char)} {y : Nat} {chars : List Char} (hy : y < height)
    (hline : lines[y]? = some chars) : (ofLines lines).rows.get y = rowOfLine chars := by
  have hrow : ((lines.take height).map rowOfLine)[y]? = some (rowOfLine chars) := by
    rw [List.getElem?_map, List.getElem?_take_of_lt hy, hline, Option.map_some]
  obtain ⟨hlt, hget⟩ := List.getElem?_eq_some_iff.1 hrow
  have hlength : ((lines.take height).map rowOfLine).length ≤ 32 := by
    rw [List.length_map, List.length_take]
    exact Nat.min_le_left _ _
  have hwritten := (Bank.fill 32 0#64).get_write_of_le 0 _ hlength hlt
  rwa [Nat.zero_add, hget] at hwritten

/-- A picture determines the display, which is read back from it. -/
theorem Shown.ofLines_eq {d : Display} {lines : List (List Char)} (h : d.Shown lines) :
    ofLines lines = d := by
  refine ext_pixel fun x y => ?_
  obtain ⟨chars, hline, hlength, hpixels⟩ := h (y % 32) (Nat.mod_lt y (by decide))
  have hchar := hpixels (x % 64) (Nat.mod_lt x (by decide))
  calc (ofLines lines).pixel x y
      = (rowOfLine chars).getMsbD (x % 64) := by
        have hy : y % 32 < height := Nat.mod_lt y (by decide)
        rw [pixel, ← Bank.get_mod, rows_ofLines hy hline]
    _ = d.pixel (x % 64) (y % 32) := by
        rw [getMsbD_rowOfLine hlength hchar]
        cases d.pixel (x % 64) (y % 32) <;> rfl
    _ = d.pixel x y := d.pixel_congr (Nat.mod_mod x 64) (Nat.mod_mod y 32)

end Display

theorem rowText_chars (d : Display) (y : Nat) :
    (d.rowText y).toList =
      (List.range Display.width).map fun x => if d.pixel x y then '#' else '.' :=
  String.toList_ofList

theorem lineFeed_not_mem_rowText (d : Display) (y : Nat) : '\n' ∉ (d.rowText y).toList := by
  rw [rowText_chars, List.mem_map]
  rintro ⟨x, -, hx⟩
  split at hx <;> cases hx

/-- The lines of a display are found in its text, whatever is printed after it. -/
theorem shown_text (d : Display) (rest : List Char) :
    d.Shown ((d.text.toList ++ rest).splitOn '\n') := by
  have hlines : ∀ line ∈ (List.range Display.height).map d.rowText, '\n' ∉ line.toList := by
    intro line hline
    obtain ⟨y, -, rfl⟩ := List.mem_map.1 hline
    exact lineFeed_not_mem_rowText d y
  rw [Display.text, splitOn_unlines hlines, List.map_map]
  intro y hy
  refine ⟨(d.rowText y).toList, ?_, ?_, fun x hx => ?_⟩
  · rw [List.getElem?_append_left (by rwa [List.length_map, List.length_range]), List.getElem?_map,
      List.getElem?_range hy]
    rfl
  · rw [rowText_chars, List.length_map, List.length_range]
  · rw [rowText_chars, List.getElem?_map, List.getElem?_range hx]
    rfl

/-! ## Stages -/

theorem toList_eq_data (bytes : ByteArray) : bytes.toList = bytes.data.toList := by
  have hloop (i : Nat) (read : List UInt8) :
      ByteArray.toList.loop bytes i read = read.reverse ++ bytes.data.toList.drop i := by
    induction i, read using ByteArray.toList.loop.induct bytes with
    | case1 i read hlt ih =>
      have hi : i < bytes.data.toList.length := hlt
      have hget : bytes.get! i = bytes.data.toList[i] := getElem!_pos bytes.data i hi
      rw [ByteArray.toList.loop, if_pos hlt, ih, hget, List.reverse_cons, List.append_assoc,
        List.singleton_append, List.drop_eq_getElem_cons hi]
    | case2 i read hge =>
      have hi : bytes.data.toList.length ≤ i := Nat.le_of_not_lt hge
      rw [ByteArray.toList.loop, if_neg hge, List.drop_eq_nil_of_le hi, List.append_nil]
  exact hloop 0 []

theorem length_toList_eq_size (bytes : ByteArray) : bytes.toList.length = bytes.size := by
  rw [toList_eq_data]
  rfl

namespace CommandLine

section

variable (files : String → Option ByteArray) (reader : String → Yaml.Document)

/-- The settings that a request works with: those in the file it names, or the defaults. -/
inductive Selects : Option String → Settings → Prop
  | defaults : Selects none {}
  | file {name text : String} {bytes : ByteArray} {settings : Settings} :
    files name = some bytes → String.fromUTF8? bytes = some text →
      Settings.parse reader text = .ok settings → Selects (some name) settings

/-- The first stage that a request does not pass, and why. -/
inductive Fails : Request → HostError → Prop
  /-- The settings cannot be read, or are no text. -/
  | settingsFile {program name : String} :
    (files name).bind String.fromUTF8? = none → Fails ⟨program, some name⟩ (.unreadable name)
  /-- The settings are rejected. -/
  | settings {program name text : String} {bytes : ByteArray} {e : SettingsError} :
    files name = some bytes → String.fromUTF8? bytes = some text →
      Settings.parse reader text = .error e → Fails ⟨program, some name⟩ (.settings e)
  /-- The settings are fine, but the program cannot be read. -/
  | programFile {program : String} {name : Option String} {settings : Settings} :
    Selects files reader name settings → files program = none →
      Fails ⟨program, name⟩ (.unreadable program)
  /-- The program is read, but does not fit. -/
  | tooLong {program : String} {name : Option String} {settings : Settings} {bytes : ByteArray} :
    Selects files reader name settings → files program = some bytes →
      Memory.maxProgram < bytes.size →
      Fails ⟨program, name⟩ (.machine (.programTooLarge bytes.size))

end

variable {μ : Type → Type}

/-- A logger that leaves standard output alone writes nothing, whatever is reported. -/
theorem written_of_quiet {host : Host μ} (quiet : ∀ level message, host.logged level message = "")
    (records : List HostRecord) : host.written records = "" := by
  induction records with
  | nil => rfl
  | cons r records ih => rw [Host.written, quiet, ih, String.append_empty]

variable [Monad μ]

/-- A host with a fixed table of files and fixed entropy, whatever its reader, its clock and its
logger do. -/
def steadyHost (files : String → Option ByteArray) (reader : String → Yaml.Document)
    (entropy : Entropy) (clock : μ (μ Unit)) (logged : Level → String → String) : Host μ where
  read file := pure (files file)
  yaml := reader
  entropy := pure entropy
  clock := clock
  logged := logged

/-- All that a run does to the clock: it is started if the settings ask for it, and waits once for
each frame. -/
def pace (settings : Settings) (clock : μ (μ Unit)) : μ Unit := do
  let pause ← if settings.throttle then clock else pure (pure ())
  (List.range settings.frames.toNat).forM fun _ => pause

/-- The machine that a session ends with if it never waits. -/
def finalMachine (settings : Settings) (m : Machine) : Machine :=
  (Session.run settings (pure () : Id Unit) m).run.1.machine

variable [LawfulMonad μ] {files : String → Option ByteArray} {reader : String → Yaml.Document}
  (entropy : Entropy) (clock : μ (μ Unit)) (logged : Level → String → String)

theorem readSettings_of_selects {name : Option String} {settings : Settings}
    (h : Selects files reader name settings) :
    readSettings (steadyHost files reader entropy clock logged) name = pure (.ok settings) := by
  cases h with
  | defaults => rfl
  | file hread htext hparse =>
    simp only [readSettings, steadyHost, pure_bind, hread, Option.bind_some, htext, hparse]
    rfl

theorem runProgram_of_fails {request : Request} {e : HostError} (h : Fails files reader request e) :
    ∃ records, runProgram (steadyHost files reader entropy clock logged) request =
      pure (records, .error e) := by
  cases h with
  | settingsFile hread =>
    refine ⟨[], ?_⟩
    simp only [runProgram, readSettings, steadyHost, pure_bind, hread]
  | settings hread htext hparse =>
    refine ⟨[], ?_⟩
    simp only [runProgram, readSettings, steadyHost, pure_bind, hread, Option.bind_some, htext,
      hparse]
    rfl
  | @programFile program _ settings hsettings hread =>
    refine ⟨[.configured settings, .loading program], ?_⟩
    rw [runProgram, readSettings_of_selects entropy clock logged hsettings]
    simp only [steadyHost, pure_bind, hread]
  | @tooLong program _ settings bytes hsettings hread hlong =>
    have hrefuse (m : Machine) :
        m.load bytes.toList entropy = .error (.programTooLarge bytes.toList.length) := if_neg (by
      rw [length_toList_eq_size]
      exact Nat.not_le_of_lt hlong)
    refine ⟨[.configured settings, .loading program, .machine .reset], ?_⟩
    rw [runProgram, readSettings_of_selects entropy clock logged hsettings]
    simp only [steadyHost, pure_bind, hread, hrefuse, length_toList_eq_size]
    rfl

/-- A program that fits is loaded and played; waiting does not affect the machine it ends with. -/
theorem runProgram_of_load {request : Request} {settings : Settings} {bytes : ByteArray}
    {loaded : Machine} (hsettings : Selects files reader request.settings settings)
    (hread : files request.program = some bytes)
    (hload : (Machine.new settings.seed entropy).load bytes.toList entropy = .ok loaded) :
    ∃ records, runProgram (steadyHost files reader entropy clock logged) request = (do
      pace settings clock
      pure (records, .ok (finalMachine settings loaded))) := by
  let records (played : Session × UInt64) : List HostRecord :=
    [.configured settings, .loading request.program] ++ [.machine .reset] ++
      sessionRecords bytes.toList played.1 played.2
  let played := (Session.run settings (pure () : Id Unit) loaded).run
  have hplayed (pause : μ Unit) :
      (Session.run settings pause loaded >>= fun played =>
        pure (records played, (.ok played.1.machine : Except HostError Machine))) = (do
      (List.range settings.frames.toNat).forM fun _ => pause
      pure (records played, .ok (finalMachine settings loaded))) := by
    rw [Session.run_eq, bind_assoc]
    simp only [pure_bind]
    rfl
  refine ⟨records played, ?_⟩
  rw [runProgram, readSettings_of_selects entropy clock logged hsettings]
  simp only [steadyHost, pure_bind, hread, hload, pace]
  split
  · rw [bind_assoc]
    exact bind_congr hplayed
  · exact hplayed (pure ())

theorem selects_of_not_fails {request : Request} (h : ¬∃ e, Fails files reader request e) :
    ∃ settings, Selects files reader request.settings settings := by
  obtain ⟨program, name⟩ := request
  cases name with
  | none => exact ⟨_, .defaults⟩
  | some name =>
    cases hread : files name with
    | none => exact absurd ⟨_, .settingsFile (by rw [hread]; rfl)⟩ h
    | some bytes =>
      cases htext : String.fromUTF8? bytes with
      | none => exact absurd ⟨_, .settingsFile (by rw [hread]; exact htext)⟩ h
      | some text =>
        cases hparse : Settings.parse reader text with
        | error e => exact absurd ⟨_, .settings hread htext hparse⟩ h
        | ok settings => exact ⟨settings, .file hread htext hparse⟩

/-- Files that settings are selected from hold a text that the reader accepts. -/
theorem Selects.of_file {name : String} {settings : Settings}
    (h : Selects files reader (some name) settings) :
    ∃ bytes text, files name = some bytes ∧ String.fromUTF8? bytes = some text ∧
      Settings.parse reader text = .ok settings := by
  cases h with
  | file hread htext hparse => exact ⟨_, _, hread, htext, hparse⟩

theorem Selects.unique {name : Option String} {settings settings' : Settings}
    (h : Selects files reader name settings) (h' : Selects files reader name settings') :
    settings = settings' := by
  cases h with
  | defaults =>
    cases h'
    rfl
  | file hread htext hparse =>
    obtain ⟨bytes, text, hread', htext', hparse'⟩ := h'.of_file
    cases hread.symm.trans hread'
    cases htext.symm.trans htext'
    exact Except.ok.inj (hparse.symm.trans hparse')

/-- No stage fails exactly if settings are selected and the program can be read and fits. -/
theorem not_fails_iff {request : Request} :
    (¬∃ e, Fails files reader request e) ↔
      ∃ settings bytes, Selects files reader request.settings settings ∧
        files request.program = some bytes ∧ bytes.size ≤ Memory.maxProgram := by
  constructor
  · intro h
    obtain ⟨settings, hsettings⟩ := selects_of_not_fails h
    obtain ⟨program, name⟩ := request
    cases hread : files program with
    | none => exact absurd ⟨_, .programFile hsettings hread⟩ h
    | some bytes =>
      refine ⟨settings, bytes, hsettings, rfl, ?_⟩
      by_contra hlong
      exact h ⟨_, .tooLong hsettings hread (Nat.lt_of_not_le hlong)⟩
  · rintro ⟨settings, bytes, hsettings, hread, hfit⟩ ⟨e, hfails⟩
    cases hfails with
    | settingsFile hnone =>
      obtain ⟨_, _, hbytes, htext, -⟩ := hsettings.of_file
      rw [hbytes, Option.bind_some, htext] at hnone
      cases hnone
    | settings hbytes htext herror =>
      obtain ⟨_, _, hbytes', htext', hparse⟩ := hsettings.of_file
      cases hbytes.symm.trans hbytes'
      cases htext.symm.trans htext'
      cases herror.symm.trans hparse
    | programFile _ hnone => cases hread.symm.trans hnone
    | tooLong _ hread' hlong =>
      cases hread.symm.trans hread'
      exact absurd hfit (Nat.not_le_of_lt hlong)

/-- What is printed of a machine begins with the picture of its display. -/
theorem shown_report (m : Machine) : m.state.display.Shown ((report m).toList.splitOn '\n') := by
  have hreport : (report m).toList =
      m.state.display.text.toList ++ ("\n" ++ m.state.keypad.text ++ "\n").toList := by
    rw [report, ← String.toList_append, ← String.append_assoc, ← String.append_assoc]
  rw [hreport]
  exact shown_text _ _

end CommandLine

/-- **What the program prints and how it exits.** Arguments that do not ask for a program to be run
get the version and the usage. Otherwise the first stage that is not passed decides, and nothing is
printed. If all are passed, the machine that the settings make of the program is printed; the first
lines are a picture of its display, which is read back from them. Arguments after the third do not
matter, and the clock takes part only in waiting. All this goes for any reader of YAML and any
entropy, but the logger has to leave standard output alone (`quiet`): what it writes there comes
first. -/
theorem outcome_of_arguments {μ : Type → Type} [Monad μ] [LawfulMonad μ]
    (files : String → Option ByteArray) (reader : String → Yaml.Document) (entropy : Entropy)
    (clock : μ (μ Unit)) (logged : Level → String → String)
    (quiet : ∀ level message, logged level message = "") (args : List String) :
    let run := CommandLine.run (CommandLine.steadyHost files reader entropy clock logged) args
    ((¬∃ program rest, args = "run" :: program :: rest) →
      run = pure
        { exitCode := 64
          stdout := "Chip8 v" ++ CommandLine.version ++ "\n" ++ CommandLine.usage ++ "\n"
          failure := none }) ∧
    ∀ program rest, args = "run" :: program :: rest →
      (∀ e, CommandLine.Fails files reader ⟨program, rest.head?⟩ e →
        run = pure { exitCode := 1, stdout := "", failure := some e }) ∧
      ((¬∃ e, CommandLine.Fails files reader ⟨program, rest.head?⟩ e) →
        ∃ settings bytes loaded, CommandLine.Selects files reader rest.head? settings ∧
          files program = some bytes ∧
          (Machine.new settings.seed entropy).load bytes.toList entropy = .ok loaded ∧
          let m := CommandLine.finalMachine settings loaded
          let stdout := m.state.display.text ++ "\n" ++ m.state.keypad.text ++ "\n"
          let lines := stdout.toList.splitOn '\n'
          run = (do
            CommandLine.pace settings clock
            pure { exitCode := 0, stdout, failure := none }) ∧
          m.state.display.Shown lines ∧ Display.ofLines lines = m.state.display) := by
  intro run
  have hlog : ∀ records,
      (CommandLine.steadyHost files reader entropy clock logged).written records = "" :=
    CommandLine.written_of_quiet quiet
  refine ⟨fun husage => ?_, ?_⟩
  · have hparse : CommandLine.parse args = .error .usage := by
      unfold CommandLine.parse
      split
      · next program rest => exact absurd ⟨program, rest, rfl⟩ husage
      · rfl
    show CommandLine.run _ args = _
    rw [CommandLine.run, hparse]
  · rintro program rest rfl
    have hparse : CommandLine.parse ("run" :: program :: rest) = .ok ⟨program, rest.head?⟩ := rfl
    refine ⟨fun e hfails => ?_, fun hpassed => ?_⟩
    · obtain ⟨records, hrun⟩ := CommandLine.runProgram_of_fails entropy clock logged hfails
      show CommandLine.run _ _ = _
      rw [CommandLine.run, hparse]
      simp only [hrun, pure_bind, hlog]
    · obtain ⟨settings, bytes, hsettings, hread, hfit⟩ := CommandLine.not_fails_iff.1 hpassed
      have hload : ∃ loaded, (Machine.new settings.seed entropy).load bytes.toList entropy =
          .ok loaded := ⟨_, if_pos (by rwa [length_toList_eq_size])⟩
      obtain ⟨loaded, hload⟩ := hload
      refine ⟨settings, bytes, loaded, hsettings, hread, hload, ?_⟩
      intro m stdout lines
      have hshown : m.state.display.Shown lines := CommandLine.shown_report m
      refine ⟨?_, hshown, hshown.ofLines_eq⟩
      obtain ⟨records, hrun⟩ :=
        CommandLine.runProgram_of_load entropy clock logged hsettings hread hload
      show CommandLine.run _ _ = _
      rw [CommandLine.run, hparse]
      simp only [hrun, bind_assoc, pure_bind, hlog, String.empty_append]
      rfl

/-- A program that draws the first row of the glyph 0 and waits for a key. -/
def drawAndWait : ByteArray := ⟨#[0xD0, 0x01, 0xF0, 0x0A]⟩

/-- A program that fits and one that is one byte too long, and two files with settings, of which the
second are rejected. -/
def twoPrograms (name : String) : Option ByteArray :=
  if name = "wait" then some drawAndWait
  else if name = "long" then some ⟨Array.replicate 3585 0⟩
  else if name = "short" then some "frames: 2".toUTF8
  else if name = "early" then some "frames: -1".toUTF8
  else none

theorem fromUTF8?_toUTF8 (s : String) : String.fromUTF8? s.toUTF8 = some s := dif_pos s.isValidUTF8

/-- Without a program there is the usage. Settings that cannot be read, or are rejected, are what
fails even if the program is too long, too. The four pixels drawn are read back from what is printed
after the two frames that the settings ask for. -/
theorem outcome_of_arguments_twoPrograms :
    let host := CommandLine.steadyHost twoPrograms .ofText #v[3, 1, 4, 1, 5, 9, 2, 6]
      (pure (pure ()) : Id (Id Unit)) fun _ _ => ""
    let run := CommandLine.run host
    (run ["run"]).run.exitCode = 64 ∧
      (run ["run", "long", "none", "more"]).run.failure = some (.unreadable "none") ∧
      (run ["run", "long", "early"]).run.failure = some (.settings
        (.mismatch [.field "frames"] (.type (.integer (-1)) "usize"))) ∧
      (run ["run", "long"]).run.failure = some (.machine (.programTooLarge 3585)) ∧
      (run ["run", "wait", "short"]).run.exitCode = 0 ∧
      let seen := Display.ofLines ((run ["run", "wait", "short"]).run.stdout.toList.splitOn '\n')
      (List.range 64).map (fun x => seen.pixel x 0) =
        List.replicate 4 true ++ List.replicate 60 false := by
  intro host run
  have houtcome := outcome_of_arguments twoPrograms .ofText #v[3, 1, 4, 1, 5, 9, 2, 6]
    (pure (pure ()) : Id (Id Unit)) (fun _ _ => "") fun _ _ => rfl
  have hread : twoPrograms "wait" = some drawAndWait := rfl
  have hreadLong : twoPrograms "long" = some ⟨Array.replicate 3585 0⟩ := rfl
  have hsize : ByteArray.size ⟨Array.replicate 3585 0⟩ = 3585 := Array.size_replicate
  have hshort : Settings.parse .ofText "frames: 2" = .ok { frames := 2 } := by decide +kernel
  have hearly : Settings.parse .ofText "frames: -1" =
      .error (.mismatch [.field "frames"] (.type (.integer (-1)) "usize")) := by decide +kernel
  have husage := (houtcome ["run"]).1 (by rintro ⟨program, rest, h⟩; cases h)
  have hsettings := ((houtcome ["run", "long", "none", "more"]).2 "long" ["none", "more"] rfl).1 _
    (.settingsFile rfl)
  have hrejected := ((houtcome ["run", "long", "early"]).2 "long" ["early"] rfl).1 _
    (.settings rfl (fromUTF8?_toUTF8 _) hearly)
  have hlong := ((houtcome ["run", "long"]).2 "long" [] rfl).1 _
    (.tooLong .defaults hreadLong (by rw [hsize]; decide))
  rw [hsize] at hlong
  have hselected : CommandLine.Selects twoPrograms .ofText (some "short") { frames := 2 } :=
    .file rfl (fromUTF8?_toUTF8 _) hshort
  obtain ⟨settings, bytes, loaded, hselects, hbytes, hload, hrun, -, hlines⟩ :=
    ((houtcome ["run", "wait", "short"]).2 "wait" ["short"] rfl).2
      (CommandLine.not_fails_iff.2 ⟨_, _, hselected, hread, by decide⟩)
  obtain rfl := hselected.unique hselects
  cases hread.symm.trans hbytes
  rw [toList_eq_data] at hload
  cases hload
  have hdisplay := congrArg (fun o => Display.ofLines (o.stdout.toList.splitOn '\n'))
    (congrArg Id.run hrun)
  refine ⟨congrArg (·.run.exitCode) husage, congrArg (·.run.failure) hsettings,
    congrArg (·.run.failure) hrejected, congrArg (·.run.failure) hlong,
    congrArg (·.run.exitCode) hrun, ?_⟩
  show (List.range 64).map (fun x => (Display.ofLines _).pixel x 0) = _
  rw [hdisplay.trans hlines]
  decide +kernel

end ChipEight
