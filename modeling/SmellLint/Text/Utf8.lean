import SmellLint.Text.Quoted

/-!
# Reading bytes as text

Bytes are read as UTF-8.  What cannot be read is reported with the bytes concerned: a byte that
starts no character, a byte that does not continue the one that was started, or an end of the data
inside a character.
-/

namespace SmellLint.Text.Utf8

/-- Why bytes are not text. -/
inductive Reason where
  | start
  | continuation
  | truncated
deriving DecidableEq

/-- The bytes that are not text: the first of them, where they start, how many they are, and
why. -/
structure Fault where
  byte : UInt8
  position : Nat
  count : Nat
  reason : Reason
deriving DecidableEq

def Fault.message (f : Fault) : String :=
  let reason := match f.reason with
    | .start => "invalid start byte"
    | .continuation => "invalid continuation byte"
    | .truncated => "unexpected end of data"
  if f.count = 1 then
    s!"'utf-8' codec can't decode byte 0x{hex 2 f.byte.toNat} in position {f.position}: {reason}"
  else
    let last := f.position + f.count - 1
    s!"'utf-8' codec can't decode bytes in position {f.position}-{last}: {reason}"

def isContinuation (b : UInt8) : Bool := 0x80 ≤ b && b < 0xC0

/-- Whether the byte `second` can follow `first` in a longer character. -/
def allowsSecond (first second : UInt8) : Bool :=
  isContinuation second && (if first = 0xE0 then 0xA0 ≤ second
     else if first = 0xED then second < 0xA0
     else if first = 0xF0 then 0x90 ≤ second
     else if first = 0xF4 then second < 0x90
     else true)

/-- The number of bytes of the character that `first` starts; zero if it starts none. -/
def width (first : UInt8) : Nat :=
  if first < 0x80 then 1
  else if first < 0xC2 then 0
  else if first < 0xE0 then 2
  else if first < 0xF0 then 3
  else if first < 0xF5 then 4
  else 0

/-- Checks the bytes after the first: how many of those that are needed belong to the character. -/
def takeContinuations : Nat → List UInt8 → List UInt8
  | 0, _ => []
  | _, [] => []
  | n + 1, b :: r => if isContinuation b then b :: takeContinuations n r else []

/-- The value of a character's bytes. -/
def value (first : UInt8) (rest : List UInt8) : Nat :=
  let lead := match rest.length with
    | 0 => first.toNat
    | 1 => first.toNat % 0x20
    | 2 => first.toNat % 0x10
    | _ => first.toNat % 0x08
  rest.foldl (fun n b => n * 64 + b.toNat % 64) lead

/-- One character from the front of the bytes, and how many bytes it takes. -/
def char? (position : Nat) (first : UInt8) (rest : List UInt8) : Except Fault (Char × Nat) :=
  match width first with
  | 0 => .error ⟨first, position, 1, .start⟩
  | 1 => .ok (Char.ofNat first.toNat, 0)
  | n + 1 =>
    match rest with
    | [] => .error ⟨first, position, 1, .truncated⟩
    | second :: _ =>
      if !allowsSecond first second then .error ⟨first, position, 1, .continuation⟩
      else
        let got := takeContinuations n rest
        if got.length = n then .ok (Char.ofNat (value first got), n)
        else if got.length = rest.length then
          .error ⟨first, position, got.length + 1, .truncated⟩
        else .error ⟨first, position, got.length + 1, .continuation⟩

/-- Reads bytes as characters; `skip` bytes belong to the character before. -/
def decodeFrom (position skip : Nat) : List UInt8 → Except Fault (List Char)
  | [] => .ok []
  | b :: r =>
    match skip with
    | n + 1 => decodeFrom (position + 1) n r
    | 0 =>
      match char? position b r with
      | .error f => .error f
      | .ok (c, n) =>
        match decodeFrom (position + 1) n r with
        | .error f => .error f
        | .ok cs => .ok (c :: cs)

def decode (bytes : List UInt8) : Except Fault String := (decodeFrom 0 0 bytes).map String.ofList

/-- Reads bytes as characters where it can; the replacement character stands for what is none.
`skip` bytes belong to what is before. -/
def decodeLossy (skip : Nat) : List UInt8 → List Char
  | [] => []
  | b :: r =>
    match skip with
    | n + 1 => decodeLossy n r
    | 0 =>
      match char? 0 b r with
      | .ok (c, n) => c :: decodeLossy n r
      | .error f => '\ufffd' :: decodeLossy (f.count - 1) r

/-- The places in a text of the first halves of pairs that stand alone, up to the next character
that is none. -/
structure EncodeFault where
  position : Nat
  codes : List Nat
deriving DecidableEq

def EncodeFault.message (f : EncodeFault) : String :=
  match f.codes with
  | [code] =>
    s!"'utf-8' codec can't encode character '\\u{hex 4 code}' in position {f.position}: " ++
      "surrogates not allowed"
  | codes =>
    s!"'utf-8' codec can't encode characters in position {f.position}-" ++
      s!"{f.position + codes.length - 1}: surrogates not allowed"

/-- The first character that is `refused`, with the halves of pairs that follow it. -/
def faultIn? (refused : Char → Bool) (s : String) : Option EncodeFault :=
  let before := s.toList.takeWhile fun c => !refused c
  match (s.toList.drop before.length).takeWhile isHalf with
  | [] => none
  | halves => some ⟨before.length, halves.map codeOfChar⟩

/-- What keeps `s` from being written as bytes: halves of pairs that stand alone. -/
def encodeFault? (s : String) : Option EncodeFault := faultIn? isHalf s

theorem faultIn?_eq_none_iff {refused : Char → Bool} {s : String}
    (hhalf : ∀ c, refused c = true → isHalf c = true) :
    faultIn? refused s = none ↔ ∀ c ∈ s.toList, refused c = false := by
  have hchars : ∀ cs : List Char,
      (cs.drop (cs.takeWhile fun c => !refused c).length).takeWhile isHalf = []
        ↔ ∀ c ∈ cs, refused c = false := by
    intro cs
    induction cs with
    | nil => simp
    | cons c cs ih =>
      by_cases hc : refused c = true
      · simp [hc, hhalf c hc]
      · rw [Bool.not_eq_true] at hc
        simpa [hc] using ih
  rw [← hchars, faultIn?]
  split
  · next h => exact iff_of_true rfl h
  · next h => exact iff_of_false (by simp) h

/-- `s` can be encoded if it holds no halves of pairs. -/
theorem encodeFault?_eq_none_iff {s : String} :
    encodeFault? s = none ↔ ∀ c ∈ s.toList, isHalf c = false :=
  faultIn?_eq_none_iff fun _ => id

/-- `texts` can be encoded one after the other if each of them can. -/
theorem encodeFault?_join_eq_none_iff {texts : List String} :
    encodeFault? (String.join texts) = none ↔ ∀ s ∈ texts, encodeFault? s = none := by
  simp only [encodeFault?_eq_none_iff, String.toList_join, List.mem_flatMap]
  constructor
  · exact fun h s hs c hc => h c ⟨s, hs, hc⟩
  · rintro h c ⟨s, hs, hc⟩
    exact h s hs c hc

/-- `texts` up to the first that cannot be written as bytes. -/
def writable (texts : List String) : List String := texts.takeWhile fun s => (encodeFault? s).isNone

theorem writable_eq_self {texts : List String} (h : ∀ s ∈ texts, encodeFault? s = none) :
    writable texts = texts := by
  induction texts with
  | nil => rfl
  | cons s texts ih =>
    obtain ⟨hs, htexts⟩ := List.forall_mem_cons.1 h
    rw [writable, List.takeWhile_cons, hs, Option.isNone_none, if_pos rfl]
    exact congrArg (s :: ·) (ih htexts)

theorem encodeFault?_join_writable (texts : List String) :
    encodeFault? (String.join (writable texts)) = none := by
  rw [encodeFault?_join_eq_none_iff]
  intro s hs
  induction texts with
  | nil => cases hs
  | cons t texts ih =>
    rw [writable, List.takeWhile_cons] at hs
    split at hs
    · next ht =>
      rcases List.mem_cons.1 hs with rfl | hs
      · exact Option.isNone_iff_eq_none.1 ht
      · exact ih hs
    · cases hs

def encode (s : String) : List UInt8 := s.toUTF8.toList

end SmellLint.Text.Utf8
