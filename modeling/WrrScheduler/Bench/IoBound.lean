/-
The IO benchmark, `io-bound.c`.

A `size_t`, a `ssize_t` and an `int` have 32 bits, as on the ARM target.  Files are
sequences of bytes; `read` gives a whole block or what is left, `write` takes
everything, and `lseek` succeeds.
-/
import Mathlib.Algebra.Group.Nat.Defs
import Mathlib.Data.List.Basic

namespace WrrScheduler

/-! ### The command line -/

/-- `isspace`. -/
def isSpace (c : Char) : Bool := c = ' ' || (9 ≤ c.toNat && c.toNat ≤ 13)

/-- The number the digits at the front of a string are. -/
def leadingDigits (cs : List Char) : Nat :=
  (cs.takeWhile Char.isDigit).foldl (fun n c => 10 * n + (c.toNat - 48)) 0

/-- `atoi`: spaces, a sign, digits, and the end of the range for what is out of it. -/
def atoi (s : String) : Int :=
  match s.toList.dropWhile isSpace with
  | '-' :: cs => max (-(leadingDigits cs : Int)) (-2147483648)
  | '+' :: cs => min (leadingDigits cs : Int) 2147483647
  | cs => min (leadingDigits cs : Int) 2147483647

/-- `MIN_ARGS`. -/
def minArgs : Nat := 7

/-- `MAX_CHILDREN`. -/
def maxChildren : Int := 5000

/-- Why a command line is not accepted. -/
inductive ArgError
  | notEnoughArguments (argc : Nat)
  | policy
  | sourceFile (path : String)
  | blockSize
  | transferSize
  | childrenCount
  deriving DecidableEq, Repr

/-- What `parseCommandLine` writes. -/
structure IoArgs where
  policy : Nat
  childCount : Int
  blockSize : BitVec 32
  tranSize : BitVec 32
  deriving DecidableEq, Repr

/-- The policies by their names. -/
def ioPolicy (name : String) : Option Nat :=
  if name = "SCHED_WRR" then some 6
  else if name = "SCHED_FIFO" then some 1
  else if name = "SCHED_RR" then some 2
  else none

/-- `parseCommandLine`; `canOpen` says which files can be opened for reading. -/
def parseCommandLine (canOpen : String → Bool) (argv : List String) : Except ArgError IoArgs :=
  if argv.length < minArgs then .error (.notEnoughArguments argv.length)
  else
    match ioPolicy (argv.getD 1 "") with
    | none => .error .policy
    | some policy =>
      let src := argv.getD 2 ""
      let block := atoi (argv.getD 4 "")
      let tran := atoi (argv.getD 5 "")
      let childCount := atoi (argv.getD 6 "")
      let blockSize := BitVec.ofInt 32 block
      if !canOpen src then .error (.sourceFile src)
      else if block < 0 then .error .blockSize
      else if tran < 0 ∨ tran < blockSize.toInt then .error .transferSize
      else if childCount < 1 ∨ maxChildren < childCount then .error .childrenCount
      else
        .ok
          { policy := policy
            childCount := childCount
            blockSize := blockSize
            tranSize := BitVec.ofInt 32 tran }

/-! ### The copy loop -/

/-- The offset in the source, what the destination holds, and `total_bytes_written`. -/
structure CopyState (α : Type) where
  offset : Nat
  dest : List α
  totalBytesWritten : BitVec 32
  deriving DecidableEq, Repr

variable {α : Type}

/-- What `read` gives. -/
def readBlock (src : List α) (bSize : BitVec 32) (offset : Nat) : List α :=
  (src.drop offset).take bSize.toNat

/-- The body of the loop in `childTask`. -/
def copyRound (src : List α) (bSize : BitVec 32) (s : CopyState α) : CopyState α :=
  let buf := readBlock src bSize s.offset
  let bytesRead := buf.length
  let s := { s with offset := s.offset + bytesRead }
  let s :=
    if 0 < bytesRead then
      { s with dest := s.dest ++ buf
               totalBytesWritten := s.totalBytesWritten + BitVec.ofNat 32 bytesRead }
    else s
  if BitVec.ofNat 32 bytesRead ≠ bSize then { s with offset := 0 } else s

/-- The loop, as many rounds as the fuel lasts. -/
def copyLoop (src : List α) (bSize tSize : BitVec 32) : Nat → CopyState α → Option (CopyState α)
  | 0, _ => none
  | n + 1, s =>
    let s := copyRound src bSize s
    if s.totalBytesWritten.slt tSize then copyLoop src bSize tSize n s else some s

/-- `childTask`, once its files are open and its buffer is there. -/
def childTask (src : List α) (bSize tSize : BitVec 32) (fuel : Nat) : Option (CopyState α) :=
  copyLoop src bSize tSize fuel { offset := 0, dest := [], totalBytesWritten := 0 }

end WrrScheduler
