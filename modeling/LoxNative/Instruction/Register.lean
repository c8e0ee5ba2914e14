namespace LoxNative

/-!
# Registers

The sixteen general purpose registers, each at one of its widths.  A register is its hardware number
together with the part of it that a name denotes.  The four oldest registers also name their second
byte; in an encoding those names share the numbers four to seven with the low bytes of other
registers.
-/

/-- The hardware number of a general purpose register. -/
abbrev RegisterNumber := Fin 16

/-- Sixteen is not zero, so every numeral names a hardware number modulo sixteen. -/
instance sixteenNeZero : @NeZero Nat Zero.ofOfNat0 16 :=
  ⟨by decide⟩

/-- A hardware number is one of sixteen. -/
theorem RegisterNumber.bound (number : RegisterNumber) : number.val < 16 :=
  number.isLt

/-- A register name: a hardware register and the part of it that is meant. -/
inductive Register
  | qword (number : RegisterNumber)
  | dword (number : RegisterNumber)
  | word (number : RegisterNumber)
  | low (number : RegisterNumber)
  /-- Bits 8 to 15 of one of the first four registers. -/
  | high (number : Fin 4)
deriving DecidableEq, Inhabited

namespace Register

def rax : Register := .qword 0
def rcx : Register := .qword 1
def rdx : Register := .qword 2
def rbx : Register := .qword 3
def rsp : Register := .qword 4
def rbp : Register := .qword 5
def rsi : Register := .qword 6
def rdi : Register := .qword 7
def al : Register := .low 0

/-- The names of the full registers, by hardware number. -/
def qwordNames : Vector String 16 :=
  #v["rax", "rcx", "rdx", "rbx", "rsp", "rbp", "rsi", "rdi",
    "r8", "r9", "r10", "r11", "r12", "r13", "r14", "r15"]

/-- The names of the lower halves, by hardware number. -/
def dwordNames : Vector String 16 :=
  #v["eax", "ecx", "edx", "ebx", "esp", "ebp", "esi", "edi",
    "r8d", "r9d", "r10d", "r11d", "r12d", "r13d", "r14d", "r15d"]

/-- The names of the lowest sixteen bits, by hardware number. -/
def wordNames : Vector String 16 :=
  #v["ax", "cx", "dx", "bx", "sp", "bp", "si", "di",
    "r8w", "r9w", "r10w", "r11w", "r12w", "r13w", "r14w", "r15w"]

/-- The names of the lowest bytes, by hardware number. -/
def lowNames : Vector String 16 :=
  #v["al", "cl", "dl", "bl", "spl", "bpl", "sil", "dil",
    "r8b", "r9b", "r10b", "r11b", "r12b", "r13b", "r14b", "r15b"]

/-- The names of the second bytes, by hardware number. -/
def highNames : Vector String 4 :=
  #v["ah", "ch", "dh", "bh"]

/-- The name of a register. -/
def name : Register -> String
  | qword number => qwordNames.get number
  | dword number => dwordNames.get number
  | word number => wordNames.get number
  | low number => lowNames.get number
  | high number => highNames.get number

/-- The number of bits that a register name denotes. -/
def width : Register -> Nat
  | qword _ => 64
  | dword _ => 32
  | word _ => 16
  | low _ => 8
  | high _ => 8

/-- The number that stands for a register in an encoding. -/
def code : Register -> Nat
  | qword number => number
  | dword number => number
  | word number => number
  | low number => number
  | high number => number + 4

/-- Whether a name denotes a second byte. -/
def isHigh : Register -> Bool
  | high _ => true
  | _ => false

/-- The names of one hardware register, widest first, with the second byte before the lowest. -/
def family (number : RegisterNumber) : List Register :=
  [qword number, dword number, word number] ++
    (if second : number.val < 4 then [high ⟨number, second⟩] else []) ++ [low number]

/-- All registers in the order of their listing numbers. -/
def all : List Register :=
  ([0, 3, 1, 2, 6, 7, 5, 4, 8, 9, 10, 11, 12, 13, 14, 15] : List RegisterNumber).flatMap family

/-- The listing number of a register. -/
def index (register : Register) : Nat :=
  all.idxOf register

/-- The register with a name. -/
def ofName? (name : String) : Option Register :=
  all.find? fun register => register.name == name

/-- The text shown for a listing number, which need not belong to any register. -/
def nameOfIndex (index : UInt8) : String :=
  match all[index.toNat]? with
  | some register => register.name
  | none => s!"Reg({index.toNat})"

end Register

end LoxNative
