import SmellLint.Text.CodeTable

/-!
# Letters with case

The letters that have an upper-case or lower-case form, and the characters that do not end a word,
by the Unicode standard (version 14).
-/

namespace SmellLint.Text

/-- Where the class of letters with case changes. -/
def casedBoundaries : Thunk (Array Nat) := .mk fun _ => boundariesOf ⟨713, "
X0(@@aMphg<b@b4]+t/|oidu!n%8wagI2j^$F4r9.ta_J]tYD*u]yJ[GYgQ4OkBaXM$Gu>UDG>O9Q=:;87/%&h<Sg@Xink<6/D+8
?4:QylYs[|<1uvCe5:^5O6eQf@CefYe<[1TyoX?hJSC+SyYGMHS.`h>(Is$90LY)q@X;uW6&K+d,=rw,OZU@rREVK1zyW_)e[d6Y
2>]tVMmJ|8Zyx8f8cBba:yRq?rqds~>r=fwWs@/|IxORf4:oIGO&Y2Uz%NqXrJLQ[4L6Ji_M/631].AU:o<6j[.*vuVl0(tZ7t<G
2^^b0THP|/"⟩

/-- Where the class of characters changes that are passed over when the end of a word is looked for:
marks, apostrophes and the like. -/
def casePassiveBoundaries : Thunk (Array Nat) := .mk fun _ => boundariesOf ⟨1965, "
Y%D`f]*Xgm)xs)[@Bynk*gn3!Y4TsH>>GozhNYefS.6:Ul/B^&n'/`<.p[hm[8>j;uGc74?Z[T_VI;Y[:QV,^j7F/z9suT&)?ekO
=`[Gdeuf(U0s%8h*dLf1OPk>KB.p_@m7hY`a2_i&2$;?GhRfdR+xU<jo_*AM6qLsnteg2g>las+n+G20iw!!C/)!qo?G<1H,207Z
Rc.!on(BA:W.EW+u)IZ<fQP=Rpop|(<DA(D0=`?d95oZJ_,Vxzz94o&V2)&e@aTdm$zAxcJIi'vY6B:g5&,N=;*e07'8_hZtIg(<
R'>'QT_M].W<~OLq53KC,4MGL%[3F&3Wq~@i;7D'PSAUgfqkDEK;J/41WoDaCVdTtR3*~3Hllmmr;!?huN59Hdvw<SaTy?%sge7<
(@Jt.8^(.raP>^E:86>5>/d(GUlS4W@2QtT[LX@3!3k?IHdB*w!x?w>ytqQL<mm1AaQ9D;F27s.)9DK?~:2wl&7:r,gsUt^NZ%%M
3d?[&$tO~]Kv;)5Rw[(%b$R9Ux&;C4H^i:04('2cM`1:vY!WmO+;b)>'L7'$]OLAsmQN=9<&_E4+<r'8a=QI4:LmK5~1!:l/ITI9
^&kz^K'iOQVDWhZ8h`g_`X:p8Tezh[Gad$O8!0>v_nPDQ=/:NTw(=Qnh*K/D^`Vd^.v6rjeAu&h:,sCkZ<7V,Jn,|''SMc&MYVzb
Ld:7/lK_+NE?ye=kZJ|a!DSDD![ww3(dXHZ^pZ[X%/jM[=EO/O<v_7kv'fdPd[n0YKh39'_2g'Uw+_6H:LgVEX[,1|D"⟩

/-- Whether a character is a letter with case, or comes from one. -/
def isCased (c : Char) : Bool := inBoundaries casedBoundaries.get c.toNat

/-- Whether a character is passed over when the end of a word is looked for. -/
def isCasePassive (c : Char) : Bool := inBoundaries casePassiveBoundaries.get c.toNat

/-!
## Lower case

The lower-case form of characters, as runs of the Unicode standard's mapping: every `step`-th
character of a run moves by the same amount.  A capital sigma has two lower-case forms, one of them
for the end of a word.
-/

/-- A run of characters that have lower-case forms: the first, the last, the distance from one to
the next, and how far each moves. -/
abbrev CaseRun := Nat × Nat × Nat × Int

/-- The runs in order, with semicolons between them, as hexadecimal numbers: the distance from the
end of the run before, how many characters follow the first, the distance from one to the next, and
how far each moves, with a minus in front if it moves back. -/
def lowerRows : Packed := ⟨1740, "
X0(@0qQ[F<P&9M/5oe[&KZo8IlA~Yy4o=qA@vSga4:UBrYEO0>,Muv<]_'gly;cU/XnIWXwkAc:TX/ESk,mo6*t(Ys4@6;GL2l>^
B3%(cq[UJXTm_LLyof^2d4~u2a,4F44@+x(Hl+O,FqL^z2@3]O_y]$m~m.YiOu^xn!4!uF1*tZ(toi]wGqb:'C=WGXy[RV&8FjiJ
xC.gbNM]C)H';<=:Ak0`syrwmPA1*RxD(y8?8K>7@fiOu3qDfe*E3S((Ld_2eO=)lTHeH7SG>)|.T%q;Kd6%BodVhx)3GQ'GO~CO
rbCT$ibHiOsCnQtFee*4P)=h<j%t1ax5~~Ftz`;:rx|Kd%N9_:wjfG6Z1K?@Ib|*YN3GAY^ZmX2Qw8Nky$RU5LnXoChv&&%5Olzw
7p:@=ZBn=]RE:Sfxg>,VTj7]~cg_s|2xx&>r<9J&qi7:vE;_Kv!_:W3ua>Q`WC[O*q=(/%tJj<tQ<+:Vqnsg3`1yi/)H`&41]/.m
<wO)y%`13NaI&K;NB52QJdO1)wT1xVvR$?]CnK/64eqHVg?]9YEF'IPRSl/2c~S`)3<tqFVinP`i;4!W"⟩

/-- Adds a run to those before it, which end at a code point. -/
def addCaseRun (before : List CaseRun × Nat) (entry : String) : List CaseRun × Nat :=
  match splitOn ' ' entry with
  | [distance, count, step, move] =>
    let first := before.2 + hexValue distance.toList
    let step := hexValue step.toList
    let last := first + hexValue count.toList * step
    let move : Int := match move.toList with
      | '-' :: digits => -hexValue digits
      | digits => hexValue digits
    (before.1 ++ [(first, last, step, move)], last)
  | _ => before

def lowerRuns : Thunk (List CaseRun) := .mk fun _ =>
  ((splitOn ';' lowerRows.text).foldl addCaseRun ([], 0)).1

/-- The number of the lower-case form of a character. -/
def lowerCode (n : Nat) : Nat :=
  match lowerRuns.get.find? fun (first, last, step, _) =>
      first ≤ n && n ≤ last && (n - first) % step == 0 with
  | some (_, _, _, move) => ((n : Int) + move).toNat
  | none => n

/-- The lower-case form of a character by itself. -/
def lowerChar (c : Char) : List Char :=
  if c.toNat < 128 then [c.toLower]
  else if c.toNat = 0x130 then ['i', '\u0307']
  else [Char.ofNat (lowerCode c.toNat)]

/-- Whether the first character that ends the looking for a word is a letter with case. -/
def startsCased (cs : List Char) : Bool :=
  ((cs.dropWhile isCasePassive).head?.map isCased).getD false

/-- The lower-case form of characters; `before` are those in front of them, in reverse.  A capital
sigma has its final form behind a letter if no letter follows. -/
def lowerFrom (before : List Char) : List Char → List Char
  | [] => []
  | c :: r =>
    let here :=
      if c = 'Σ' then [if startsCased before && !startsCased r then 'ς' else 'σ'] else lowerChar c
    here ++ lowerFrom (c :: before) r

def lower (s : String) : String := String.ofList (lowerFrom [] s.toList)

/-! ### Comparing without regard to case -/

/-- Lower-case letters that count as the same letter without regard to case, besides a letter and
its capital. -/
def caseClasses : List (List Nat) := [
  [0x69, 0x131], [0x73, 0x17f], [0xb5, 0x3bc], [0x345, 0x3b9, 0x1fbe], [0x390, 0x1fd3],
  [0x3b0, 0x1fe3], [0x3b2, 0x3d0], [0x3b5, 0x3f5], [0x3b8, 0x3d1], [0x3ba, 0x3f0], [0x3c0, 0x3d6],
  [0x3c1, 0x3f1], [0x3c2, 0x3c3], [0x3c6, 0x3d5], [0x432, 0x1c80], [0x434, 0x1c81],
  [0x43e, 0x1c82], [0x441, 0x1c83], [0x442, 0x1c84, 0x1c85], [0x44a, 0x1c86], [0x463, 0x1c87],
  [0x1c88, 0xa64b], [0x1e61, 0x1e9b], [0xfb05, 0xfb06]]

/-- The code point that stands for a character in comparisons without regard to case. -/
def foldCode (c : Char) : Nat :=
  let n := if c.toNat = 0x130 then 0x69 else lowerCode c.toNat
  match caseClasses.find? (·.contains n) with
  | some (least :: _) => least
  | _ => n

/-- What follows a start that is compared without regard to case. -/
def dropStartFolded? : List Char → List Char → Option (List Char)
  | [], cs => some cs
  | _ :: _, [] => none
  | a :: s, b :: cs => if foldCode a = foldCode b then dropStartFolded? s cs else none

end SmellLint.Text
