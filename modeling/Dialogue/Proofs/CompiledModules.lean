import Dialogue.Command.Run
import Dialogue.Files.Memory
import Dialogue.Proofs.AssembledPrograms
import Dialogue.Proofs.ModuleRoundTrip
import Dialogue.Proofs.ReadInstructions

/-!
# Compiled modules

A script that compiles gives a module that is read back and disassembled under the same
configuration. A snippet is therefore shown whenever it compiles, and so is a module file that holds
its binary.
-/

namespace Dialogue

open Script Command

theorem Script.Form.plainMode {i : Instruction} (h : Form i) : i.PlainMode := by
  cases h with
  | marker => decide
  | line | action | call | switch | emotion | wait | color | actors | sync | userInput =>
    exact Instruction.plainMode_of_mode_eq_zero rfl

theorem Script.StandsIn.plainMode {us : List LexUnit} {i : Instruction} (h : StandsIn us i) :
    i.PlainMode := by
  obtain ⟨u, -, j, hj, rfl⟩ := h
  exact ⟨hj.plainMode.actor, hj.plainMode.action, hj.plainMode.namedCall⟩

theorem compile_eq_ok_iff {source : Bytes} {opts : CompileOptions} {r : Compilation} :
    compile source opts = .ok r ↔
      LexUnit.ofSource source = .ok r.units ∧ instructions r.units = .ok r.instructions ∧
        Program.assemble opts.order r.instructions = .ok r.program ∧
        r.program.package opts.toModuleOptions = r.binary := by
  simp only [compile, Result.bind_eq_ok_iff, Result.mapError_eq_ok_iff, Result.pure_eq_ok_iff]
  constructor
  · rintro ⟨units, hunits, is, his, p, hp, rfl⟩
    exact ⟨hunits, his, hp, rfl⟩
  · rintro ⟨hunits, his, hp, hbinary⟩
    refine ⟨r.units, hunits, r.instructions, his, r.program, hp, ?_⟩
    rw [hbinary]

section

variable {source : Bytes} {opts : CompileOptions} {r : Compilation}
  (hr : compile source opts = .ok r)

include hr

/-- A compiled module is read back with its own byte order. -/
theorem decode_compiled (hlen : r.binary.length < 2 ^ 64) :
    Module.decode r.binary ⟨some r.program.order, opts.legacyDataSize⟩ =
      .ok (r.program.packaged opts.toModuleOptions) := by
  obtain ⟨-, his, hp, hbinary⟩ := compile_eq_ok_iff.mp hr
  rw [← hbinary] at hlen ⊢
  have hdata := Program.zero_notMem_data hp
  have hcode := Program.code_ne_nil hp (standsIn_of_mem_instructions his).1
  have heven := Program.two_dvd_length_code hp
  cases hopts : opts.legacyDataSize with
  | true => exact Program.decode_package_fromEnd hlen hdata hcode heven
  | false => exact Program.decode_package_declared hlen hdata hcode heven hopts

theorem exists_listing_compiled :
    ∃ l, Listing.ofModule (r.program.packaged opts.toModuleOptions) = .ok l ∧
      (r.program.packaged opts.toModuleOptions).disassemble = .ok l.code := by
  obtain ⟨-, his, hp, -⟩ := compile_eq_ok_iff.mp hr
  have hmodes : ∀ i ∈ r.instructions, i.PlainMode := fun i hi =>
    ((standsIn_of_mem_instructions his).2 i hi).plainMode
  obtain ⟨entries, hentries, -⟩ := Program.exists_entries hmodes hp r.program.data
  exact ⟨_, Result.map_eq_ok_iff.mpr ⟨entries, hentries, rfl⟩, hentries⟩

theorem evaluate_compiled (hlen : r.binary.length < 2 ^ 64) {l : Listing}
    (hl : Listing.ofModule (r.program.packaged opts.toModuleOptions) = .ok l) :
    evaluate source opts = .ok (l.attachSource r.program.sourceMap).table := by
  simp only [evaluate, Result.bind_eq_ok_iff, Result.mapError_eq_ok_iff, Result.pure_eq_ok_iff]
  exact ⟨r, hr, _, decode_compiled hr hlen, l, hl, rfl⟩

end

/-! ## Commands on a host in memory -/

namespace MemoryHost

variable {α β : Type}

/-- The result of a command, and the host behind it. -/
def perform (w : MemoryHost) (x : ExceptT CommandError (StateM MemoryHost) α) :
    Except CommandError α × MemoryHost :=
  x.run.run w

theorem perform_bind {w w' : MemoryHost} {x : ExceptT CommandError (StateM MemoryHost) α} {a : α}
    (hx : w.perform x = (.ok a, w')) (f : α → ExceptT CommandError (StateM MemoryHost) β) :
    w.perform (x >>= f) = w'.perform (f a) := by
  have hrun : x w = (.ok a, w') := hx
  simp only [perform, ExceptT.run, StateT.run, bind, ExceptT.bind, ExceptT.mk, StateT.bind, hrun]
  rfl

theorem perform_orFail {ε : Type} (w : MemoryHost) (f : ε → CommandError) (a : α) :
    w.perform (orFail f (.ok a)) = (.ok a, w) := rfl

theorem perform_readFile (w : MemoryHost) (path : Bytes) :
    w.perform (ExceptT.lift (Host.readFile path)) = (.ok (w.tree.read w.directory path), w) := rfl

theorem perform_say (w : MemoryHost) (channel : Channel) (text : Bytes) :
    w.perform (say channel text) =
      (.ok (), { w with output := w.output ++ [(channel, text)] }) := rfl

end MemoryHost

/-- A listing in one of the formats of the command. -/
def Listing.text (l : Listing) (format : Bytes) : Bytes :=
  Text.utf8 (if format = Text.utf8 "table" then l.table else l.yaml)

theorem perform_decodeOptions {w : MemoryHost} {s : Settings} {c : Config} {opts : DecodeOptions}
    (hc : w.perform (loadConfig s) = (.ok c, w)) (hopts : c.decodeOptions = .ok opts) :
    w.perform (decodeOptions s) = (.ok opts, w) := by
  rw [decodeOptions, MemoryHost.perform_bind hc, hopts, MemoryHost.perform_orFail]

/-- The listing of a module file is written if the file can be read under the configuration. -/
theorem perform_runDisassemble {w : MemoryHost} {s : Settings} {path blob : Bytes} {c : Config}
    {opts : DecodeOptions} {m : Module} {l : Listing}
    (hblob : w.tree.read w.directory path = .ok blob)
    (hc : w.perform (loadConfig s) = (.ok c, w)) (hopts : c.decodeOptions = .ok opts)
    (hm : Module.decode blob opts = .ok m) (hl : Listing.ofModule m = .ok l)
    (hformat : s.format = Text.utf8 "table" ∨ s.format = Text.utf8 "yaml") :
    w.perform (runDisassemble s [path]) =
      (.ok (), { w with output := w.output ++ [(.out, l.text s.format)] }) := by
  have hread : w.perform (ExceptT.lift (Host.readFile path)) = (.ok (.ok blob), w) := by
    rw [w.perform_readFile, hblob]
  unfold runDisassemble
  simp only [List.getElem?_cons_zero, Option.getD_some]
  rw [MemoryHost.perform_bind hread, MemoryHost.perform_bind (w.perform_orFail _ blob),
    MemoryHost.perform_bind (perform_decodeOptions hc hopts), hm,
    MemoryHost.perform_bind (w.perform_orFail _ m), hl,
    MemoryHost.perform_bind (w.perform_orFail _ l)]
  by_cases htable : s.format = Text.utf8 "table"
  · rw [if_pos htable, MemoryHost.perform_say, Listing.text, if_pos htable]
  · have hyaml : s.format = Text.utf8 "yaml" := hformat.resolve_left htable
    rw [if_neg htable, if_pos hyaml, MemoryHost.perform_say, Listing.text, if_neg htable]

/-- A script that compiles under a configuration gives a module that is read back and disassembled
under it. So a snippet is shown whenever it compiles, and the file of its module can be listed. -/
theorem compiled_module_readable (c : Config) (opts : CompileOptions) (source : Bytes)
    (r : Compilation) (hopts : c.compileOptions = .ok opts) (hr : compile source opts = .ok r)
    (hlen : r.binary.length < 2 ^ 63) :
    ∃ readOpts m l,
      c.decodeOptions = .ok readOpts ∧ Module.decode r.binary readOpts = .ok m ∧
      m.data = r.program.data ∧ m.jumps = r.program.jumps ∧ m.code = r.program.code ∧
      m.header.version = c.version ∧ m.header.minVersion = c.minVersion ∧
      m.header.flags = c.flags ∧
      m.disassemble = .ok l.code ∧ Listing.ofModule m = .ok l ∧
      evaluate source opts = .ok (l.attachSource r.program.sourceMap).table ∧
      ∀ (w : MemoryHost) (s : Settings) (path : Bytes),
        w.tree.read w.directory path = .ok r.binary → w.perform (loadConfig s) = (.ok c, w) →
        (s.format = Text.utf8 "table" ∨ s.format = Text.utf8 "yaml") →
        w.perform (runDisassemble s [path]) =
          (.ok (), { w with output := w.output ++ [(.out, l.text s.format)] }) := by
  obtain ⟨order, horder, rfl⟩ := Result.map_eq_ok_iff.mp hopts
  have hread : c.decodeOptions = .ok ⟨some order, c.legacyDataSize⟩ := by
    rw [Config.decodeOptions, horder]
    rfl
  obtain ⟨-, -, hp, -⟩ := compile_eq_ok_iff.mp hr
  have hlen' : r.binary.length < 2 ^ 64 := Nat.lt_trans hlen (by decide)
  obtain ⟨l, hl, hcode⟩ := exists_listing_compiled hr
  have hm := decode_compiled hr hlen'
  rw [Program.order_assemble hp] at hm
  have hshown := evaluate_compiled hr hlen' hl
  refine ⟨_, _, l, hread, hm, rfl, rfl, rfl, rfl, rfl, rfl, hcode, hl, hshown, ?_⟩
  intro w s path hblob hc hformat
  exact perform_runDisassemble hblob hc hread hm hl hformat

/-- A script with instructions of all forms that have operands. -/
def greeting : Bytes :=
  Text.utf8 "[..., ann] !glad ##red \"hi\" '20 @wave(both, hands) $go there +lamp * ;"

/-- The flags for a big-endian module of the older kind that is listed as YAML. -/
def olderKind : Settings where
  byteOrder := some (Text.utf8 "BE")
  legacyDataSize := some true
  flags := some 7
  format := Text.utf8 "yaml"

/-- A host with a module file. -/
def hostWith (binary : Bytes) : MemoryHost where
  tree := { entries := [([Text.utf8 "greeting.dvm"], .file binary)] }

theorem compiled_module_readable_greeting :
    ∃ opts r, (olderKind.applyTo {}).compileOptions = .ok opts ∧
      compile greeting opts = .ok r ∧ r.binary.length < 2 ^ 63 ∧
      (∃ text, evaluate greeting opts = .ok text) ∧
      ((hostWith r.binary).perform (runDisassemble olderKind [Text.utf8 "greeting.dvm"])).1 =
        .ok () := by
  let opts : CompileOptions :=
    { flags := 7, legacyDataSize := true, order := some .big }
  have hopts : (olderKind.applyTo {}).compileOptions = .ok opts := by decide +kernel
  have hsmall :
      (compile greeting opts).toOption.any (fun r => r.binary.length < 2 ^ 63) = true := by
    decide +kernel
  cases hr : compile greeting opts with
  | error e =>
    rw [hr] at hsmall
    cases hsmall
  | ok r =>
    rw [hr] at hsmall
    have hlen : r.binary.length < 2 ^ 63 := of_decide_eq_true hsmall
    have hfile : (hostWith r.binary).tree.read [] (Text.utf8 "greeting.dvm") = .ok r.binary :=
      rfl
    obtain ⟨_, _, _, _, _, _, _, _, _, _, _, _, _, hshown, hlisted⟩ :=
      compiled_module_readable _ opts greeting r hopts hr hlen
    refine ⟨opts, r, hopts, hr, hlen, ⟨_, hshown⟩, ?_⟩
    rw [hlisted (hostWith r.binary) olderKind _ hfile rfl (.inr rfl)]

end Dialogue
