import Mathlib
import LoxNative.Proofs.CompilerCorrectness
import LoxNative.Proofs.MemorySafety
import LoxNative.Proofs.ObjectFormat
import LoxNative.Proofs.TextBytes
import LoxNative.Toolchain

namespace LoxNative

/-!
# The executable and the machine hold the same program

Assembly text is brought to life in two ways.  Building packs its code into an object file and links
that into an executable image; executing loads the code into a machine and runs it.  Both look up
the entry point and refuse one without code behind it, building when it reads the object file again
and executing when it loads.

The two agree on which texts can be started, up to the size of the machine's memory, and what they
start is the same: the image holds behind its headers the bytes that the machine holds from address
zero on, and starts at the byte where the machine starts.
-/

/-- A text defines an entry point: it is assembled, and its code has that label. -/
structure HasEntry (text : AssemblyText) (assembly : Assembly) (entry : UInt32) : Prop where
  assembled : Assembly.ofText text = .ok assembly
  defined : Assembly.labelOffset? assembly.labels Program.entryPoint = some entry

/-- A text can be started: it defines an entry point, and there is code from that point on. -/
structure Startable (text : AssemblyText) (assembly : Assembly) (entry : UInt32) : Prop
    extends HasEntry text assembly entry where
  inside : entry.toNat < assembly.code.length

/-! ## Images -/

namespace ExecutableImage

/-- The address at which an image starts, as the file header tells it. -/
def entryAddress (image : List UInt8) : Nat :=
  LittleEndian.value ((image.drop 24).take 8)

theorem length_fileHeader (entry : UInt32) : (fileHeader entry).bytes.length = 64 := by
  simp only [FileHeader.bytes, List.length_append, LittleEndian.bytes_length,
    LittleEndian.dword_length, LittleEndian.qword_length]
  rfl

theorem length_segmentHeader (length : Nat) : (segmentHeader length).bytes.length = 56 := by
  simp only [SegmentHeader.bytes, List.length_append, LittleEndian.dword_length,
    LittleEndian.qword_length]

/-- The code stands behind the headers, up to the end of the file. -/
theorem drop_encode (code : List UInt8) (entry : UInt32) : (encode code entry).drop 120 = code := by
  apply List.drop_left'
  rw [List.length_append, length_fileHeader, length_segmentHeader]

theorem toNat_entry_fileHeader (entry : UInt32) :
    (fileHeader entry).entry.toNat = 0x400000 + 120 + entry.toNat := by
  have small := entry.toNat_lt
  change (baseAddress + UInt64.ofNat codeOffset + entry.toUInt64).toNat = _
  rw [UInt64.toNat_add, UInt64.toNat_add, UInt32.toNat_toUInt64]
  change ((0x400000 + 120) % 2 ^ 64 + entry.toNat) % 2 ^ 64 = _
  omega

theorem entryAddress_encode (code : List UInt8) (entry : UInt32) :
    entryAddress (encode code entry) = 0x400000 + 120 + entry.toNat := by
  have around : exists front behind, front.length = 24 ∧
      encode code entry = front ++ (LittleEndian.qword (fileHeader entry).entry ++ behind) := by
    refine ⟨(fileHeader entry).identification ++
      LittleEndian.bytes 2 (fileHeader entry).fileType.toNat ++
      LittleEndian.bytes 2 (fileHeader entry).machine.toNat ++
      LittleEndian.dword (fileHeader entry).version, ?behind, rfl, ?_⟩
    rotate_left
    · simp only [encode, FileHeader.bytes, List.append_assoc]
      rfl
  rcases around with ⟨front, behind, width, split⟩
  rw [entryAddress, split, List.drop_left' width, List.take_left' (LittleEndian.qword_length _),
    LittleEndian.value_qword_eq, toNat_entry_fileHeader]

end ExecutableImage

/-! ## Building -/

namespace Toolchain

theorem objectOf_eq_ok_iff {text : AssemblyText} {object : List UInt8} :
    objectOf text = .ok object <-> exists assembly entry, HasEntry text assembly entry ∧
      object = ObjectFile.encode assembly.code entry := by
  constructor
  · intro packed
    unfold objectOf at packed
    split at packed
    · cases packed
    · rename_i assembly assembled
      split at packed
      · cases packed
      · rename_i entry defined
        exact ⟨assembly, entry, ⟨assembled, defined⟩, (Except.ok.inj packed).symm⟩
  · rintro ⟨assembly, entry, ⟨assembled, defined⟩, rfl⟩
    rw [objectOf, assembled]
    simp only [defined]

theorem imageOf_encode (code : List UInt8) (entry : UInt32) (image : List UInt8) :
    imageOf [ObjectFile.encode code entry] = .ok image <->
      entry.toNat < code.length ∧ image = ExecutableImage.encode code entry := by
  unfold imageOf
  simp only [ObjectFile.decode_encode]
  by_cases inside : entry.toNat < code.length
  · rw [if_pos inside]
    exact ⟨fun linked => ⟨inside, (Except.ok.inj linked).symm⟩,
      fun linked => congrArg Except.ok linked.2.symm⟩
  · rw [if_neg inside]
    exact ⟨nofun, fun linked => absurd linked.1 inside⟩

theorem build_builtin (source : List UInt8) :
    (build false source .builtin).1 = objectOf (Text.decode source) >>= fun object =>
      imageOf [object] := by
  have assembled : assemble false source .builtin = (objectOf (Text.decode source), .builtin) := rfl
  rw [build, assembled]
  cases objectOf (Text.decode source) <;> rfl

/-- Exactly the texts that can be started are built, into the image of their code. -/
theorem build_eq_ok_iff {source image : List UInt8} :
    (build false source .builtin).1 = .ok image <-> exists assembly entry,
      Startable (Text.decode source) assembly entry ∧
        image = ExecutableImage.encode assembly.code entry := by
  rw [build_builtin]
  constructor
  · intro built
    rcases exists_of_bind_eq_ok built with ⟨object, packed, linked⟩
    rcases objectOf_eq_ok_iff.mp packed with ⟨assembly, entry, hasEntry, rfl⟩
    rcases (imageOf_encode _ _ _).mp linked with ⟨inside, isImage⟩
    exact ⟨assembly, entry, ⟨hasEntry, inside⟩, isImage⟩
  · rintro ⟨assembly, entry, startable, isImage⟩
    rw [objectOf_eq_ok_iff.mpr ⟨assembly, entry, startable.toHasEntry, rfl⟩]
    exact (imageOf_encode _ _ _).mpr ⟨startable.inside, isImage⟩

end Toolchain

/-! ## Executing -/

/-- Loaded code is run without a crash, whatever it is. -/
theorem attemptRun_of_load {code : List UInt8} {entry : UInt32} {loaded : Machine}
    (loads : Machine.initial.load code entry = .ok loaded) :
    loaded.attemptRun loaded.limit = .completed () loaded.run := by
  have fresh : Machine.initial.IsSound := by
    apply Machine.isSound_fresh Machine.initial.memory _ Machine.addressable_initial
    rw [Machine.size_initial]
    decide
  have left : Machine.initial.act (.load code entry) = loaded := by
    rw [Machine.act, Machine.attempt, loads]
    rfl
  have sound := (Machine.actsSafely fresh (.load code entry)).sound
  rw [left] at sound
  exact sound.isFit.attemptRun_eq loaded.limit

theorem execute_eq_halted_iff {text : AssemblyText} {machine : Machine} :
    execute text = .halted machine <-> exists assembly entry loaded, HasEntry text assembly entry ∧
      Machine.initial.load assembly.code entry = .ok loaded ∧ machine = loaded.run := by
  constructor
  · intro halted
    obtain ⟨fresh, same⟩ : exists fresh, fresh = Machine.initial := ⟨_, rfl⟩
    rw [execute, <- same] at halted
    rw [<- same]
    split at halted
    · cases halted
    · rename_i assembly assembled
      split at halted
      · cases halted
      · rename_i entry defined
        split at halted
        · cases halted
        · rename_i loaded loads
          rw [attemptRun_of_load (same ▸ loads)] at halted
          exact ⟨assembly, entry, loaded, ⟨assembled, defined⟩, loads,
            (Outcome.halted.inj halted).symm⟩
  · rintro ⟨assembly, entry, loaded, hasEntry, loads, rfl⟩
    rw [execute_of_entry hasEntry.assembled hasEntry.defined, loads]
    exact congrArg Outcome.ofRun (attemptRun_of_load loads)

/-- Code is loaded into a new machine if it fits its memory and contains the entry; then memory
begins with the code, and the machine stands at the entry. -/
theorem load_initial_eq_ok_iff {code : List UInt8} {entry : UInt32} :
    (exists loaded, Machine.initial.load code entry = .ok loaded) <->
      code.length ≤ 65536 ∧ entry.toNat < code.length := by
  have size : Machine.initial.memory.size = 65536 := Machine.size_initial
  rw [<- size]
  constructor
  · rintro ⟨loaded, loads⟩
    by_contra refused
    rcases Machine.load_eq_error refused with ⟨error, failed⟩
    cases failed.symm.trans loads
  · rintro ⟨fits, inside⟩
    rcases Machine.load_eq_ok fits inside with ⟨loaded, loads, -⟩
    exact ⟨loaded, loads⟩

theorem loaded_of_load {code : List UInt8} {entry : UInt32} {loaded : Machine}
    (loads : Machine.initial.load code entry = .ok loaded) :
    loaded.codeEnd = code.length ∧ Machine.readBytes loaded.memory 0 code.length = code ∧
      loaded.position.toNat = entry.toNat := by
  rcases load_initial_eq_ok_iff.mp ⟨loaded, loads⟩ with ⟨fits, inside⟩
  have smaller : ¬ Machine.initial.memory.size < code.length := by
    rw [Machine.size_initial]
    exact Nat.not_lt.mpr fits
  rw [Machine.load, if_neg smaller, if_neg (Nat.not_le.mpr inside)] at loads
  cases loads
  refine ⟨rfl, Machine.readBytes_writeBytes_same _ 0 code ?_, UInt32.toNat_toUInt64 entry⟩
  rw [Nat.zero_add]
  exact Nat.le_of_not_lt smaller

/-- A text that the compiler writes can be started, at its first byte. -/
theorem startable_of_compile {options : LoweringOptions} {source text : String}
    (compiled : compile options source = .ok text) :
    exists assembly, Startable (Text.glyphs text) assembly 0 := by
  rcases exists_of_compile compiled with ⟨expr, program, -, lowered, rfl⟩
  rcases Expr.execute_program options (Expr.isLowerable_of_ofExpr lowered) with
    ⟨idioms, sourceMap, found, -, assembled, -⟩
  cases lowered.symm.trans found
  have entry :
      Assembly.labelOffset? [(Program.entryPoint, 0)] Program.entryPoint = some 0 := by decide
  exact ⟨_, ⟨assembled, entry⟩,
    Nat.lt_of_lt_of_le (Expr.length_program_pos options expr) (Machine.length_le_length_encode _)⟩

/-- The built executable and the emulated program are the same program.  A text is built exactly if
it is assembled, defines the entry point and has code behind it; it is run exactly if moreover its
code fits the machine's memory.  Where both happen, the image from offset 120 to its end is what the
machine is loaded with from address zero on, and the address at which the image starts, counted from
there, is where the machine starts.  Every text that the compiler writes is built, and starts with
its first byte. -/
theorem image_holds_emulated_program :
    (forall source : List UInt8,
      ((exists image, (Toolchain.build false source .builtin).1 = .ok image) <->
        exists assembly entry, Startable (Text.decode source) assembly entry) ∧
      ((exists machine, execute (Text.decode source) = .halted machine) <->
        exists assembly entry, Startable (Text.decode source) assembly entry ∧
          assembly.code.length ≤ 65536) ∧
      forall image machine, (Toolchain.build false source .builtin).1 = .ok image ->
        execute (Text.decode source) = .halted machine ->
        exists assembly entry loaded, Startable (Text.decode source) assembly entry ∧
          Machine.initial.load assembly.code entry = .ok loaded ∧ machine = loaded.run ∧
          loaded.codeEnd = (image.drop 120).length ∧
          Machine.readBytes loaded.memory 0 loaded.codeEnd = image.drop 120 ∧
          ExecutableImage.entryAddress image = 0x400000 + 120 + loaded.position.toNat) ∧
    (forall options source text, compile options source = .ok text ->
      exists image, (Toolchain.build false (Text.toBytes text) .builtin).1 = .ok image ∧
        ExecutableImage.entryAddress image = 0x400000 + 120) := by
  refine ⟨fun source => ⟨?_, ?_, ?_⟩, ?_⟩
  · constructor
    · rintro ⟨image, built⟩
      rcases Toolchain.build_eq_ok_iff.mp built with ⟨assembly, entry, startable, -⟩
      exact ⟨assembly, entry, startable⟩
    · rintro ⟨assembly, entry, startable⟩
      exact ⟨_, Toolchain.build_eq_ok_iff.mpr ⟨assembly, entry, startable, rfl⟩⟩
  · constructor
    · rintro ⟨machine, halted⟩
      rcases execute_eq_halted_iff.mp halted with ⟨assembly, entry, loaded, hasEntry, loads, -⟩
      rcases load_initial_eq_ok_iff.mp ⟨loaded, loads⟩ with ⟨fits, inside⟩
      exact ⟨assembly, entry, ⟨hasEntry, inside⟩, fits⟩
    · rintro ⟨assembly, entry, startable, fits⟩
      rcases load_initial_eq_ok_iff.mpr ⟨fits, startable.inside⟩ with ⟨loaded, loads⟩
      exact ⟨loaded.run,
        execute_eq_halted_iff.mpr ⟨assembly, entry, loaded, startable.toHasEntry, loads, rfl⟩⟩
  · intro image machine built halted
    rcases Toolchain.build_eq_ok_iff.mp built with ⟨assembly, entry, startable, rfl⟩
    rcases execute_eq_halted_iff.mp halted with ⟨other, otherEntry, loaded, hasEntry, loads, rfl⟩
    cases startable.assembled.symm.trans hasEntry.assembled
    cases startable.defined.symm.trans hasEntry.defined
    rcases loaded_of_load loads with ⟨codeEnd, memory, position⟩
    refine ⟨assembly, entry, loaded, startable, loads, rfl, ?_, ?_, ?_⟩
    · rw [ExecutableImage.drop_encode, codeEnd]
    · rw [ExecutableImage.drop_encode, codeEnd, memory]
    · rw [ExecutableImage.entryAddress_encode, position]
  · intro options source text compiled
    rcases startable_of_compile compiled with ⟨assembly, startable⟩
    rw [<- Text.decode_toBytes] at startable
    exact ⟨_, Toolchain.build_eq_ok_iff.mpr ⟨assembly, 0, startable, rfl⟩,
      ExecutableImage.entryAddress_encode assembly.code 0⟩

/-- A text whose entry point is its second instruction. -/
theorem image_holds_emulated_program_second :
    let source := Text.toBytes "push rax\n_start: mov rax, 60\nsyscall"
    exists image loaded, (Toolchain.build false source .builtin).1 = .ok image ∧
      execute (Text.decode source) = .halted (Machine.run loaded) ∧
      Machine.readBytes loaded.memory 0 loaded.codeEnd = image.drop 120 ∧
      ExecutableImage.entryAddress image = 0x400079 ∧ loaded.position.toNat = 1 ∧
      exists text optimized, compile ⟨true⟩ "1 + 2" = .ok text ∧
        (Toolchain.build false (Text.toBytes text) .builtin).1 = .ok optimized ∧
        ExecutableImage.entryAddress optimized = 0x400078 := by
  intro source
  have facts : (Assembly.ofText (Text.glyphs "push rax\n_start: mov rax, 60\nsyscall")).toOption.map
      (fun assembly =>
        (assembly.code.length, Assembly.labelOffset? assembly.labels Program.entryPoint)) =
        some (10, some 1) := by
    decide +kernel
  rw [<- Text.decode_toBytes] at facts
  have accepted : (compile ⟨true⟩ "1 + 2").toOption.isSome = true := by decide +kernel
  rcases image_holds_emulated_program with ⟨agree, everyCompiled⟩
  rcases agree source with ⟨builds, runs, same⟩
  cases assembled : Assembly.ofText (Text.decode source) with
  | error problem =>
      rw [assembled] at facts
      cases facts
  | ok assembly =>
      rw [assembled] at facts
      rcases Prod.mk.inj (Option.some.inj facts) with ⟨length, defined⟩
      have startable : Startable (Text.decode source) assembly 1 := by
        refine ⟨⟨assembled, defined⟩, ?_⟩
        rw [length]
        decide
      have small : assembly.code.length ≤ 65536 := by
        rw [length]
        decide
      rcases builds.mpr ⟨assembly, 1, startable⟩ with ⟨image, built⟩
      rcases runs.mpr ⟨assembly, 1, startable, small⟩ with ⟨machine, halted⟩
      rcases same image machine built halted with
        ⟨other, entry, loaded, otherStartable, loads, rfl, -, memory, address⟩
      cases assembled.symm.trans otherStartable.assembled
      cases defined.symm.trans otherStartable.defined
      have position := (loaded_of_load loads).2.2
      rw [position] at address
      refine ⟨image, loaded, built, halted, memory, address, position, ?_⟩
      cases compiled : compile ⟨true⟩ "1 + 2" with
      | error problem =>
          rw [compiled] at accepted
          cases accepted
      | ok text =>
          rcases everyCompiled _ _ _ compiled with ⟨optimized, alsoBuilt, first⟩
          exact ⟨text, optimized, rfl, alsoBuilt, first⟩

end LoxNative
