import Dialogue.Proofs.CleanTexts
import Dialogue.Proofs.TomlTables

/-!
# Dumped configurations

A configuration that is written out and loaded is the same again, whatever words and flag it holds
and however the name of its byte order is spelled. So a dumped configuration can stand for the file
and the flags it was made from.
-/

namespace Dialogue

/-! ## Words -/

namespace Numeral

theorem readFrom_append (base limit acc : Nat) (cs ds : List Char) :
    readFrom base limit acc (cs ++ ds) =
      readFrom base limit acc cs >>= fun n => readFrom base limit n ds := by
  induction cs generalizing acc with
  | nil => rfl
  | cons c cs ih =>
    rw [List.cons_append, readFrom, readFrom]
    cases digitValue? c with
    | none => rfl
    | some d =>
      dsimp only
      split
      · rfl
      split
      · rfl
      · exact ih _

theorem digitValue?_digitChar {d : Nat} (hd : d < 10) : digitValue? d.digitChar = some d := by
  have hall : ∀ d < 10, digitValue? (Nat.digitChar d) = some d := by decide
  exact hall d hd

theorem readFrom_digit {limit d : Nat} (acc : Nat) (hd : d < 10) (hlimit : acc * 10 + d ≤ limit) :
    readFrom 10 limit acc [d.digitChar] = .ok (acc * 10 + d) := by
  rw [readFrom, digitValue?_digitChar hd]
  dsimp only
  rw [if_neg (Nat.not_le.mpr hd), if_neg (Nat.not_lt.mpr hlimit)]
  rfl

theorem readFrom_toDigits {limit n : Nat} (h : n ≤ limit) :
    readFrom 10 limit 0 (Nat.toDigits 10 n) = .ok n := by
  induction n using Nat.strongRecOn with
  | ind n ih =>
    rw [Nat.toDigits_eq_if (by decide)]
    split
    · rename_i hn
      rw [readFrom_digit 0 hn (by omega), Nat.zero_mul, Nat.zero_add]
    · rename_i hn
      rw [readFrom_append, ih (n / 10) (by omega) (by omega)]
      have hsplit : n / 10 * 10 + n % 10 = n := Nat.div_add_mod' n 10
      have hdigit := readFrom_digit (n / 10) (Nat.mod_lt n (by decide)) (hsplit.trans_le h)
      rw [hsplit] at hdigit
      exact hdigit

theorem read_toDigits (w : UInt64) : read 10 maxWord (Nat.toDigits 10 w.toNat) = .ok w.toNat := by
  have hne : ¬ (Nat.toDigits 10 w.toNat).isEmpty = true := by
    rw [List.isEmpty_iff]
    exact Nat.toDigits_ne_nil
  rw [read, if_neg hne]
  exact readFrom_toDigits (Nat.le_sub_one_of_lt w.toNat_lt)

end Numeral

/-! ## Names of byte orders -/

namespace ByteOrder

/-- Every character of the name of a byte order is a letter in its small form. -/
theorem isLower_of_ofName {name : Bytes} {order : ByteOrder} (h : ofName name = .ok order) :
    ∀ c ∈ Text.decode name, (small c).isLower = true := by
  have hnames : ∀ s ∈ ["", "little", "le", "big", "be"], s.toList.all Char.isLower = true := by
    decide
  have hmem : String.ofList ((Text.decode name).map small) ∈ ["", "little", "le", "big", "be"] := by
    unfold ofName at h
    split at h
    case h_6 => cases h
    all_goals
      rename_i heq
      rw [heq]
      decide
  intro c hc
  have hall := hnames _ hmem
  rw [String.toList_ofList, List.all_map, List.all_eq_true] at hall
  exact hall c hc

theorem isPlain_of_isAlpha {c : Char} (h : c.isAlpha = true) :
    Toml.IsPlain c ∧ Text.isPrintable c = true := by
  have hrange : 65 ≤ c.toNat ∧ c.toNat ≤ 90 ∨ 97 ≤ c.toNat ∧ c.toNat ≤ 122 := by
    rcases Bool.or_eq_true_iff.mp h with hupper | hlower
    · have hupper : 'A'.val ≤ c.val ∧ c.val ≤ 'Z'.val := of_decide_eq_true hupper
      exact .inl hupper
    · have hlower := Bool.and_eq_true_iff.mp hlower
      exact .inr ⟨of_decide_eq_true hlower.1, of_decide_eq_true hlower.2⟩
  have hne {d : Char} (hd : c.toNat ≠ d.toNat) : c ≠ d := ne_of_apply_ne Char.toNat hd
  have hquote : '"'.toNat = 34 := rfl
  have hbackslash : '\\'.toNat = 92 := rfl
  refine ⟨⟨by omega, hne (by omega), hne (by omega)⟩, ?_⟩
  rw [Text.isPrintable, if_pos (by omega), Bool.and_eq_true, decide_eq_true_iff, decide_eq_true_iff]
  omega

theorem isPlain_of_small {c : Char} (h : (small c).isLower = true) :
    Toml.IsPlain c ∧ Text.isPrintable c = true := by
  unfold small at h
  split at h
  · rename_i hc
    rw [hc]
    exact ⟨by unfold Toml.IsPlain; decide, by decide +kernel⟩
  split at h
  · rename_i hc
    rw [hc]
    exact ⟨by unfold Toml.IsPlain; decide, by decide +kernel⟩
  · refine isPlain_of_isAlpha ?_
    unfold Char.toLower at h
    split at h
    · rename_i hupper
      exact Bool.or_eq_true_iff.mpr (.inl (decide_eq_true hupper))
    · exact Bool.or_eq_true_iff.mpr (.inr h)

theorem isWellFormed_of_ofName {name : Bytes} {order : ByteOrder} (h : ofName name = .ok order) :
    Text.isWellFormed name = true := by
  rw [Text.isWellFormed, List.all_eq_true]
  intro g hg
  cases g with
  | char c => rfl
  | stray b =>
    -- a stray byte is read as a character that is no letter
    have hlower := isLower_of_ofName h '\ufffd' (List.mem_map.mpr ⟨_, hg, rfl⟩)
    exact absurd hlower (by decide)

end ByteOrder

theorem Quoted.toList_text {cs : List Char}
    (hcs : ∀ c ∈ cs, Toml.IsPlain c ∧ Text.isPrintable c = true) :
    (Quoted.text (Text.encode cs)).toList = '"' :: (cs ++ ['"']) := by
  have hchar : ∀ c ∈ cs, (Quoted.glyph '"' (.char c)).toList = [c] := by
    intro c hc
    obtain ⟨⟨-, hquote, hbackslash⟩, hprintable⟩ := hcs c hc
    have hmark : ¬ (c = '"' ∨ c = '\\') := not_or.mpr ⟨hquote, hbackslash⟩
    rw [Quoted.glyph, Quoted.char, if_neg hmark, if_pos hprintable]
    exact String.toList_singleton c
  have hjoined : (String.join ((cs.map Glyph.char).map (Quoted.glyph '"'))).toList = cs := by
    rw [String.toList_join, List.map_map, List.flatMap_map]
    refine (List.flatMap_congr hchar).trans ?_
    exact List.flatMap_singleton' cs
  rw [Quoted.text, Text.glyphs_encode, String.toList_append, String.toList_append, hjoined]
  rfl

/-! ## Configurations -/

namespace Config

/-- The key with the given name. -/
def key (name : String) (h : (!name.toList.isEmpty && name.toList.all Toml.isBareKey) = true) :
    Toml.BareKey where
  name := name.toList
  ne_nil := by
    intro hnil
    rw [hnil] at h
    cases h
  isBareKey := List.all_eq_true.mp (Bool.and_eq_true_iff.mp h).2

/-- The name of the only table. -/
def moduleKey : Toml.BareKey :=
  key "Module" (by decide)

/-- The lines of a configuration with a byte order of the given name. -/
def lines (c : Config) (name : List Char) (hname : ∀ ch ∈ name, Toml.IsPlain ch) :
    List Toml.Line :=
  [⟨key "Version" (by decide), .integer c.version.toNat⟩,
    ⟨key "MinVersion" (by decide), .integer c.minVersion.toNat⟩,
    ⟨key "Flags" (by decide), .integer c.flags.toNat⟩,
    ⟨key "ByteOrder" (by decide), .string name hname⟩,
    ⟨key "LegacyDataSize" (by decide), .boolean c.legacyDataSize⟩]

theorem toList_toToml (c : Config) {name : List Char}
    (hname : ∀ ch ∈ name, Toml.IsPlain ch ∧ Text.isPrintable ch = true)
    (h : c.byteOrder = Text.encode name) :
    c.toToml.toList =
      Toml.tableText moduleKey (c.lines name fun ch hch => (hname ch hch).1) := by
  have hflag : (if c.legacyDataSize then "true" else "false").toList =
      (Toml.PlainValue.boolean c.legacyDataSize).text := by
    cases c.legacyDataSize with
    | false => rfl
    | true => rfl
  have hdecimal (n : Nat) : (Numeral.decimal n).toList = Nat.toDigits 10 n := String.toList_ofList
  unfold toToml
  rw [h]
  simp only [String.toList_append]
  rw [Quoted.toList_text hname, hflag, hdecimal, hdecimal, hdecimal, Toml.tableText, lines]
  -- both sides are one row of parts now, and differ only in where the fixed texts are cut
  simp only [Toml.bodyText_cons, Toml.Line.text, Toml.PlainValue.text, List.append_assoc,
    List.cons_append]
  rfl

theorem wordField_integer (field : String) (line : Nat) (w : UInt64) :
    wordField field (.value line (.integer (Nat.toDigits 10 w.toNat))) = .ok w := by
  refine Result.bind_eq_ok_iff.mpr ⟨.integer (Nat.toDigits 10 w.toNat), rfl, ?_⟩
  dsimp only
  rw [Numeral.read_toDigits]
  exact congrArg Except.ok UInt64.ofNat_toNat

theorem setFields_cons {c c' : Config} {name : List Char} {node : Toml.Node}
    (h : c.setField name node = .ok c') (fields : List (List Char × Toml.Node)) :
    c.setFields ((name, node) :: fields) = c'.setFields fields := by
  rw [setFields, h]

theorem setField_word {c : Config} {name : String} {set : UInt64 → Config}
    (hset : ∀ node, c.setField name.toList node =
      (wordField ("config.ModuleConfig." ++ name) node).map set) (line : Nat) (w : UInt64) :
    c.setField name.toList (.value line (.integer (Nat.toDigits 10 w.toNat))) = .ok (set w) := by
  rw [hset, wordField_integer]
  rfl

theorem setFields_lines (c d : Config) {name : List Char} (hname : ∀ ch ∈ name, Toml.IsPlain ch) :
    d.setFields (((c.lines name hname).zipIdx 2).map Toml.Line.field) =
      .ok { c with byteOrder := Text.encode name } := by
  have hfields : ((c.lines name hname).zipIdx 2).map Toml.Line.field =
    [("Version".toList, .value 2 (.integer (Nat.toDigits 10 c.version.toNat))),
      ("MinVersion".toList, .value 3 (.integer (Nat.toDigits 10 c.minVersion.toNat))),
      ("Flags".toList, .value 4 (.integer (Nat.toDigits 10 c.flags.toNat))),
      ("ByteOrder".toList, .value 5 (.string name)),
      ("LegacyDataSize".toList, .value 6 (.boolean c.legacyDataSize))] := rfl
  have hversion (c : Config) (node : Toml.Node) : c.setField "Version".toList node =
      (wordField ("config.ModuleConfig." ++ "Version") node).map
        fun w => { c with version := w } := by
    rw [setField, String.ofList_toList]
    rfl
  have hminVersion (c : Config) (node : Toml.Node) : c.setField "MinVersion".toList node =
      (wordField ("config.ModuleConfig." ++ "MinVersion") node).map
        fun w => { c with minVersion := w } := by
    rw [setField, String.ofList_toList]
    rfl
  have hflags (c : Config) (node : Toml.Node) : c.setField "Flags".toList node =
      (wordField ("config.ModuleConfig." ++ "Flags") node).map fun w => { c with flags := w } := by
    rw [setField, String.ofList_toList]
    rfl
  have hbyteOrder (c : Config) : c.setField "ByteOrder".toList (.value 5 (.string name)) =
      .ok { c with byteOrder := Text.encode name } := by
    rw [setField, String.ofList_toList]
    rfl
  have hlegacy (c : Config) (b : Bool) :
      c.setField "LegacyDataSize".toList (.value 6 (.boolean b)) =
        .ok { c with legacyDataSize := b } := by
    rw [setField, String.ofList_toList]
    rfl
  rw [hfields, setFields_cons (setField_word (hversion d) 2 c.version),
    setFields_cons (setField_word (hminVersion _) 3 c.minVersion),
    setFields_cons (setField_word (hflags _) 4 c.flags), setFields_cons (hbyteOrder _),
    setFields_cons (hlegacy _ c.legacyDataSize), setFields]

theorem load_toToml (c : Config) {order : ByteOrder}
    (h : ByteOrder.ofName c.byteOrder = .ok order) : load (Text.utf8 c.toToml) = .ok c := by
  have hplain : ∀ ch ∈ Text.decode c.byteOrder, Toml.IsPlain ch ∧ Text.isPrintable ch = true :=
    fun ch hch => ByteOrder.isPlain_of_small (ByteOrder.isLower_of_ofName h ch hch)
  have hname := Text.encode_decode (ByteOrder.isWellFormed_of_ofName h)
  have hnames : ((c.lines _ fun ch hch => (hplain ch hch).1).map fun l => l.key.name).Nodup := by
    change ["Version".toList, "MinVersion".toList, "Flags".toList, "ByteOrder".toList,
      "LegacyDataSize".toList].Nodup
    decide +kernel
  obtain ⟨d, hd, hroot, hmodule⟩ := Toml.parse_tableText moduleKey hnames
  have hfields := c.setFields_lines {} fun ch hch => (hplain ch hch).1
  rw [hname, ← hmodule] at hfields
  have hentries : setEntries {} d (d.fields []) = .ok c := by
    have hkey : String.ofList moduleKey.name = "Module" := String.ofList_toList
    rw [hroot, setEntries, if_pos hkey]
    rw [hfields]
    rfl
  rw [load, Text.utf8, Text.decode_encode, toList_toToml c hplain hname.symm, hd]
  refine Result.bind_eq_ok_iff.mpr ⟨c, hentries, ?_⟩
  rw [h]
  rfl

end Config

/-! ## Commands -/

namespace Command

variable {w : MemoryHost} {s : Settings} {c : Config}

theorem perform_loadConfig {contents : Bytes}
    (hcontents : w.tree.read w.directory s.config = .ok contents)
    (hc : Config.load contents = .ok c) : w.perform (loadConfig s) = (.ok (s.applyTo c), w) := by
  have hne : ¬ s.config.isEmpty = true := by
    intro hnil
    rw [List.isEmpty_iff.mp hnil] at hcontents
    cases hcontents
  have hread : w.perform (ExceptT.lift (Host.readFile s.config)) = (.ok (.ok contents), w) := by
    rw [w.perform_readFile, hcontents]
  unfold loadConfig
  rw [if_neg hne, MemoryHost.perform_bind hread,
    MemoryHost.perform_bind (w.perform_orFail _ contents), hc,
    MemoryHost.perform_bind (w.perform_orFail _ c)]
  rfl

section

variable (hc : w.perform (loadConfig s) = (.ok c, w))

include hc

theorem perform_runDumpConfig :
    w.perform (runDumpConfig s) =
      (.ok (), { w with output := w.output ++ [(.out, Text.utf8 c.toToml)] }) := by
  rw [runDumpConfig, MemoryHost.perform_bind hc, MemoryHost.perform_say]

theorem perform_compileOptions {opts : CompileOptions} (hopts : c.compileOptions = .ok opts) :
    w.perform (compileOptions s) = (.ok opts, w) := by
  rw [compileOptions, MemoryHost.perform_bind hc, hopts, MemoryHost.perform_orFail]

end

end Command

open Command

/-- A configuration with the name of a byte order is loaded from the text that is written for it. So
where a command dumps its configuration, every command that is given the dump as its file, and no
flags, has the same configuration and compiles and reads with the same options. -/
theorem dumped_config_loads (c : Config) (order : ByteOrder)
    (horder : ByteOrder.ofName c.byteOrder = .ok order) :
    Config.load (Text.utf8 c.toToml) = .ok c ∧
      ∀ (w : MemoryHost) (s : Settings), w.perform (loadConfig s) = (.ok c, w) →
        w.perform (runDumpConfig s) =
          (.ok (), { w with output := w.output ++ [(.out, Text.utf8 c.toToml)] }) ∧
        ∃ opts readOpts,
          w.perform (compileOptions s) = (.ok opts, w) ∧
          w.perform (decodeOptions s) = (.ok readOpts, w) ∧
          ∀ (w' : MemoryHost) (s' : Settings),
            w'.tree.read w'.directory s'.config = .ok (Text.utf8 c.toToml) →
            s'.byteOrder = none → s'.legacyDataSize = none → s'.flags = none →
            w'.perform (loadConfig s') = (.ok c, w') ∧
              w'.perform (compileOptions s') = (.ok opts, w') ∧
              w'.perform (decodeOptions s') = (.ok readOpts, w') := by
  have hload := c.load_toToml horder
  have hopts : c.compileOptions = .ok _ := congrArg (Except.map _) horder
  have hreadOpts : c.decodeOptions = .ok _ := congrArg (Except.map _) horder
  refine ⟨hload, fun w s hc => ⟨perform_runDumpConfig hc, _, _, perform_compileOptions hc hopts,
    perform_decodeOptions hc hreadOpts, ?_⟩⟩
  intro w' s' hfile hbyteOrder hlegacy hflags
  have hsame : s'.applyTo c = c := by
    rw [Settings.applyTo, hbyteOrder, hlegacy, hflags]
    rfl
  have hc' := perform_loadConfig hfile hload
  rw [hsame] at hc'
  exact ⟨hc', perform_compileOptions hc' hopts, perform_decodeOptions hc' hreadOpts⟩

/-- A host with a configuration file. -/
def hostConfigured (contents : Bytes) : MemoryHost where
  tree := { entries := [([Text.utf8 "a.toml"], .file contents)] }

/-- A configuration file with the greatest version and an odd spelling of a byte order. -/
def oddConfig : Bytes :=
  Text.utf8 "[Module] # by hand\nVersion = 18_446_744_073_709_551_615\nByteOrder = 'L\u0130ttLE'\n"

/-- Flags that go with the file. -/
def oddSettings : Settings where
  config := Text.utf8 "a.toml"
  legacyDataSize := some true
  flags := some 0xFFFFFFFFFFFFFFFF

theorem dumped_config_loads_odd :
    ∃ c opts,
      (hostConfigured oddConfig).perform (loadConfig oddSettings) =
        (.ok c, hostConfigured oddConfig) ∧
      c.version = 0xFFFFFFFFFFFFFFFF ∧ c.flags = 0xFFFFFFFFFFFFFFFF ∧
      c.byteOrder = Text.utf8 "L\u0130ttLE" ∧ ByteOrder.ofName c.byteOrder = .ok .little ∧
      Config.load (Text.utf8 c.toToml) = .ok c ∧
      ((hostConfigured oddConfig).perform (compileOptions oddSettings)).1 = .ok opts ∧
      ((hostConfigured (Text.utf8 c.toToml)).perform
        (compileOptions { config := Text.utf8 "a.toml" })).1 = .ok opts := by
  let c : Config :=
    { version := 0xFFFFFFFFFFFFFFFF, flags := 0xFFFFFFFFFFFFFFFF
      byteOrder := Text.utf8 "L\u0130ttLE", legacyDataSize := true }
  have hload : Config.load oddConfig =
      .ok { version := 0xFFFFFFFFFFFFFFFF, byteOrder := Text.utf8 "L\u0130ttLE" } := by
    decide +kernel
  have hread (contents : Bytes) :
      (hostConfigured contents).tree.read [] (Text.utf8 "a.toml") = .ok contents := rfl
  have hc : (hostConfigured oddConfig).perform (loadConfig oddSettings) =
      (.ok c, hostConfigured oddConfig) := perform_loadConfig (hread oddConfig) hload
  have horder : ByteOrder.ofName c.byteOrder = .ok .little := by decide +kernel
  obtain ⟨hsame, hdumped⟩ := dumped_config_loads c .little horder
  obtain ⟨-, opts, _, hopts, -, hother⟩ := hdumped _ oddSettings hc
  have hopts' := (hother (hostConfigured (Text.utf8 c.toToml)) { config := Text.utf8 "a.toml" }
    (hread _) rfl rfl rfl).2.1
  refine ⟨c, opts, hc, rfl, rfl, rfl, horder, hsame, ?_, ?_⟩
  · rw [hopts]
  · rw [hopts']

end Dialogue
