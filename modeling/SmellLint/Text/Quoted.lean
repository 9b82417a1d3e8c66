import SmellLint.Text.CodeTable

/-!
# Texts in messages

## Printable characters

A character is printable when the Unicode standard (version 14) classes it neither as a control,
format, private or unassigned character nor as a separator other than the space.
-/

namespace SmellLint.Text

/-- Where printability changes beyond the ASCII characters, starting with a run of unprintable
ones. -/
def unprintableBoundaries : Thunk (Array Nat) := .mk fun _ => boundariesOf ⟨3260, "
UGsY':(ux~<qq~raKtzXwH)pYQa[U*FuXXbGD)'`48N%swQJE6_H&,zCpH)x]Z&sS9~S/5iK`*h|/NUC:u&?NX^Wao:XA~LOJvQf
$w.91ar^F6hiMbX@/qw]2o[T<TcwVoPI/Bb@a7502r6DS2rHFs&E,cvdBhcn,3te[frzW_:zlE*Fv2~Bj80$NrqG=j9|AYI_lHP^
A>ggwvD$V5:F1^%@4s[$5=PARf1s3Nb^J&XMsr]R_ndW,RN$!H/gJCi|v3xD~/z6:J.k$:T^QIh~hf3yoOs)`TG%3$F:gkh>7D!B
b&vKJ>8M[<5@QiCSl;E,5DB9Y^AShDDmvJ]>$e2YmxBcGREKGs[gh<jeBvR2K)//B(po<>0W`)I?RWjb|`P'/0._xIJqwO>wO[mG
D15XnrUsGn:D*ssAD$.T7kbbC4=r)n&@!ltWL,.C$&$!*SfTuyra+oS;pePw%!u9r!|;'Vif+S+,5(`K`Dr&vuz[w8QA%AUPRRRr
$uigP8&s|R.e8F!hAm@:&s@0T~`k?&p+A$~V<ildxZQ&mvdS.e/Mh$U@cHvx$I!Gp;nFzUrn1@~0&ufRgiIL5')SVE95~6.hAu1:
.4(p8LmISrA*x(!U,.4YrEq3yQ6n)HO_=dBkwAVl7V_59M5I=n:*B,0Q)?tVd4Nt<]&EBCd;]F1MW[@iFnYa8gj2|w?khn&j.*3x
&RqFGnOT6O&OU>>,BMoR_LF*N84)z~cNeKFXt*]?/YZ6QJ@q6qiU>w>+egDe]K@o,PTRNSpWO+Nvb)r4kB:drj+Vsmnx?3o|=pTo
59M:W2!M>/1Jgd<kZ,j_.CF|~h6w/!mr`o)AfVhS;!,Yk6RqT?TY_U`SF%EPSx?1d(c>SU`)DJV$54V'nq36>MNpYi>s||>IC'om
psPeYfn;y3hp?zAa77Kbxkr;9oshviL0uehUcLsm]DG@I&Gxh;P=wkkq2(Yfp<jLxM'Q&gwUV6g_?/Zveayh:W)%?75bQ)A$3JQ.
/[*oc$LZ@02cP(6$hn.XH74iwNpacCOUFYj_KI$acHFQtSG<dtIEoA>Ax3a*A?v]$Hp]30NOyM1zz,mX+5n3H_mT^c,U(j!:7ptW
DOdtJmtVFxAbe14jp5Pyyd5ap*'YW<.$v/xyn9wW)F'D0yG`FY4xi?KP?(|3_IdWM(=T0)*E`rD,BDznAMK*~HYm[*H`rKg[+mVh
Hc4aLE?%;0(ZqHLW&5xF;x`8a?7>uE;zyc`OSuqKCJSQ0X3M^Zjc6VSM8:1~cp3[nS(),;kC?AtBGc|/"⟩

/-- Whether `c` is shown as itself in quoted text. -/
def isPrintable (c : Char) : Bool :=
  let n := c.toNat
  if n < 0x80 then 0x20 ≤ n && n < 0x7F else !inBoundaries unprintableBoundaries.get n

/-!
## Halves of pairs

UTF-16 writes a character beyond the first plane as a pair of code points that are no characters
themselves.  An escape can name one of them alone, and a text then holds half a pair.  There are
`0x800` more code points than values of `Char`, so as many characters have to be given up for the
halves: those from U+10A000 on, in a plane for private use, to which no standard gives a meaning.
`charOfCode` and `codeOfChar` go to and fro.  A source that itself holds a character of this block
would be read as one that holds a half, which is no program.
-/

def isHalfCode (n : Nat) : Bool := 0xD800 ≤ n && n < 0xE000

/-- The block in which halves of pairs are kept starts so far above them. -/
def halfShift : Nat := 0x10A000 - 0xD800

def charOfCode (n : Nat) : Char := Char.ofNat (if isHalfCode n then n + halfShift else n)

def isHalf (c : Char) : Bool := halfShift ≤ c.toNat && isHalfCode (c.toNat - halfShift)

theorem isHalf_eq_false_of_lt {c : Char} (h : c.toNat < 0x80) : isHalf c = false := by
  have hshift : ¬halfShift ≤ c.toNat := by
    rw [halfShift]
    omega
  rw [isHalf, decide_eq_false hshift, Bool.false_and]

def codeOfChar (c : Char) : Nat := if isHalf c then c.toNat - halfShift else c.toNat

/-- Whether `c` stands for a byte from `0x80` on in a name that is no UTF-8. -/
def isByteHalf (c : Char) : Bool := isHalf c && 0xDC80 ≤ codeOfChar c && codeOfChar c < 0xDD00

def joinedCode (high low : Nat) : Nat := 0x10000 + (high - 0xD800) * 0x400 + (low - 0xDC00)

/-- Whether `n` is the first half of a pair. -/
def isHighCode (n : Nat) : Bool := 0xD800 ≤ n && n < 0xDC00

/-- Whether `n` is the second half of a pair. -/
def isLowCode (n : Nat) : Bool := 0xDC00 ≤ n && n < 0xE000

/-!
## Quoted text

Text as a literal in messages: in single quotes, or in double quotes when it holds a single quote
and no double one.  Backslashes and the chosen quote are escaped, line feed, carriage return and tab
have short forms, and every other unprintable character is written by its number in hexadecimal
(two, four or eight digits).
-/

/-- `n` in lower-case hexadecimal with at least `width` digits. -/
def hex (width n : Nat) : String :=
  let digits := Nat.toDigits 16 n
  String.ofList (List.replicate (width - digits.length) '0' ++ digits)

def quoteFor (cs : List Char) : Char :=
  if cs.contains '\'' && !cs.contains '"' then '"' else '\''

/-- `c` between quotes; what `isShown` does not accept is written as `code`. -/
def escaped (quote : Char) (isShown : Char → Bool) (code : String) (c : Char) : String :=
  if c = quote || c = '\\' then String.ofList ['\\', c]
  else if c = '\n' then "\\n"
  else if c = '\r' then "\\r"
  else if c = '\t' then "\\t"
  else if isShown c then String.singleton c
  else code

def quotedChar (quote c : Char) : String :=
  let n := codeOfChar c
  escaped quote isPrintable (if n < 0x100 then "\\x" ++ hex 2 n
    else if n < 0x10000 then "\\u" ++ hex 4 n else "\\U" ++ hex 8 n) c

def quoted (s : String) : String :=
  let q := quoteFor s.toList
  String.singleton q ++ String.join (s.toList.map (quotedChar q)) ++ String.singleton q

def quotedByte (quote : Char) (b : UInt8) : String :=
  escaped quote (fun c => 0x20 ≤ c.toNat && c.toNat < 0x7F) ("\\x" ++ hex 2 b.toNat)
    (Char.ofNat b.toNat)

def quotedBytes (bs : List UInt8) : String :=
  let q := quoteFor (bs.map fun b => Char.ofNat b.toNat)
  "b" ++ String.singleton q ++ String.join (bs.map (quotedByte q)) ++ String.singleton q

/-!
## Bytes in hexadecimal

Two lower-case digits stand for a byte.
-/

def hexOfBytes (bytes : List UInt8) : String := String.join (bytes.map fun b => hex 2 b.toNat)

def hexDigit (c : Char) : Nat := if c.isDigit then c.toNat - 48 else c.toLower.toNat - 87

/-- The bytes that hexadecimal digits stand for, two to a byte. -/
def bytesOfHex : List Char → List UInt8
  | a :: b :: r => UInt8.ofNat (hexDigit a * 16 + hexDigit b) :: bytesOfHex r
  | _ => []

end SmellLint.Text
