/-!
# Bytes shown as text

Bytes that spell characters in UTF-8 are shown as those characters.  Where they
do not, the longest beginning of a character that the bytes still spell is shown
as one replacement character, and reading goes on with the byte that broke it.
-/

namespace Dmg

namespace Text

/-- Shown in place of bytes that spell no character. -/
def replacement : Char := '\uFFFD'

/-- The six bits that a continuation byte carries. -/
def continuationBits (byte : UInt8) : Nat :=
  byte.toNat % 64

/-- The range of the byte after a leading byte of the given value.  It is
narrower where the wider range would spell a character twice, a surrogate, or a
code point beyond the last one. -/
def secondByteRange (lead : UInt8) : UInt8 × UInt8 :=
  if lead = 0xE0 then (0xA0, 0xBF)
  else if lead = 0xED then (0x80, 0x9F)
  else if lead = 0xF0 then (0x90, 0xBF)
  else if lead = 0xF4 then (0x80, 0x8F)
  else (0x80, 0xBF)

/-- Whether a byte may follow the leading byte directly. -/
def mayFollow (lead byte : UInt8) : Bool :=
  (secondByteRange lead).1 <= byte && byte <= (secondByteRange lead).2

/-- Whether a byte may stand at the third or fourth place of a character. -/
def isContinuation (byte : UInt8) : Bool :=
  0x80 <= byte && byte <= 0xBF

/-- How many bytes the leading byte announces, itself included; zero when no
character begins with it. -/
def announcedLength (lead : UInt8) : Nat :=
  if lead < 0x80 then 1
  else if lead < 0xC2 then 0
  else if lead < 0xE0 then 2
  else if lead < 0xF0 then 3
  else if lead < 0xF5 then 4
  else 0

/-- The bits that a leading byte carries when, beyond the second byte, the
given number of bytes is still to come. -/
def leadBits (lead : UInt8) (missing : Nat) : Nat :=
  lead.toNat % (1 <<< (5 - missing))

/-- Take the continuation bytes that are still missing, and say whether they
were all there, which bits they add, and what follows them. -/
def takeContinuation : Nat -> Nat -> List UInt8 -> Option Nat × List UInt8
  | 0, bits, rest => (some bits, rest)
  | _ + 1, _, [] => (none, [])
  | missing + 1, bits, byte :: rest =>
      if isContinuation byte then
        takeContinuation missing (bits * 64 + continuationBits byte) rest
      else (none, byte :: rest)

theorem length_takeContinuation (missing bits : Nat) (bytes : List UInt8) :
    (takeContinuation missing bits bytes).2.length <= bytes.length := by
  induction bytes generalizing missing bits with
  | nil => cases missing <;> simp [takeContinuation]
  | cons byte rest inductionHypothesis =>
      cases missing with
      | zero => simp [takeContinuation]
      | succ missing =>
          simp only [takeContinuation]
          split
          · have shorter := inductionHypothesis missing (bits * 64 + continuationBits byte)
            simp only [List.length_cons]
            omega
          · simp

/-- The first character of a text that begins with the given byte, and the
bytes after it. -/
def takeCharacter (lead : UInt8) (rest : List UInt8) : Char × List UInt8 :=
  match announcedLength lead, rest with
  | 0, _ => (replacement, rest)
  | 1, _ => (Char.ofNat lead.toNat, rest)
  | _ + 2, [] => (replacement, [])
  | missing + 2, second :: others =>
      if mayFollow lead second then
        match takeContinuation missing (leadBits lead missing * 64 + continuationBits second)
            others with
        | (some code, remaining) => (Char.ofNat code, remaining)
        | (none, remaining) => (replacement, remaining)
      else (replacement, rest)

theorem length_takeCharacter (lead : UInt8) (rest : List UInt8) :
    (takeCharacter lead rest).2.length <= rest.length := by
  unfold takeCharacter
  split
  · exact Nat.le_refl _
  · exact Nat.le_refl _
  · exact Nat.le_refl _
  · rename_i missing second others _
    split
    · have shorter := length_takeContinuation missing
        (leadBits lead missing * 64 + continuationBits second) others
      split <;> rename_i taken <;> rw [taken] at shorter <;>
        simp only [List.length_cons] at shorter ⊢ <;> omega
    · exact Nat.le_refl _

/-- The characters that the bytes are shown as. -/
def decodeLossy : List UInt8 -> List Char
  | [] => []
  | lead :: rest => (takeCharacter lead rest).1 :: decodeLossy (takeCharacter lead rest).2
termination_by bytes => bytes.length
decreasing_by
  have shorter := length_takeCharacter lead rest
  simp only [List.length_cons]
  omega

end Text

end Dmg
