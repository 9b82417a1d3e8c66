import SmellLint.Text.CodeTable

/-!
# Normal forms

## Classes of marks

Marks of different classes on one letter can change places without a change of meaning; marks of one
class cannot.  The classes are those of the Unicode standard (version 14), for the marks that may
stand in names.
-/

namespace SmellLint.Text

/-- Runs of marks of one class, in order, as hexadecimal numbers: the distance from the end of the
run before, the length, and the class, with semicolons between runs. -/
def combiningRows : Packed := ⟨2741, "
XoAPQW^?x=:LV;3<t!C:lxW>:OEM'AXnXL*qhf%Ar7MX&$Qn9y,W|m>T*oyyH7S;'kM*XBpD0FVU.uE])<vL8W5)p()CfQAx):FW
+cL2:>GMc6G(GMplmJ6VdmY&33P1kBIcq(Dxt3MLNB*ln]Wv?$)s@9f0UVCf]J',VydJ~T3~uTtbQTU9Q!+Lo!NUBF*J+8b@>Ip;
VfN!*%6![M'^;F7@L&OLnp0V1D&ktR3U3Wql^>LFj.z:mal]|d,vf)W_Bs@K7LCxp_mkZ__~g6_=w[;5:^K*/&e[URSnn@`:[7Rs
0>UI5_S8,1od^H7)`kgD4nWvS6ku~~fzYi'4pHTdWU(6tAb9W'3GD0SV76%5VZT7QefG0koq.b)9h!I>^dQITUL7fpn:YQ:]5w(R
%^GSSvZb~<`fyG&(Ks^B;u(b;l@C^4ZRBqLjG,TW=67Yk6Yn!&G,cuPplue)9=t1v*<2_8G/oVrwZI?z_V$nAyu4FU]uUR%9wdND
FQQgBI/+)$_i~1sjrZ7zy|k<'^vfa@E;xFhB/Px5CW2he%KMu7[3p6hu2_Cx/>DW6G(WDJqzYGqA|//lyX&@aq.vq_1IhTkgxQYe
wv&*82S8P?ilN8/Aq24=t?L|(4%>?6q/aeaaR&)yu^T|cfYiA*YdwPC,K:cTx1(>y)Zz[M?D8$N?w?,WAe+%lWSEed@Qi6O:q*|?
IyS9`F*j*SPA&M>29Lio~fM>cY`5St~qupzRn[aHt*7a`6xSZrL'O]*t.^&&[t%fE^//"⟩

/-- Adds a run to those before it, which end before a code point. -/
def addRun (before : List (Nat × Nat × Nat) × Nat) (entry : String) :
    List (Nat × Nat × Nat) × Nat :=
  match entryNumbers entry with
  | [distance, length, k] =>
    let first := before.2 + distance
    (before.1 ++ [(first, first + length - 1, k)], first + length)
  | _ => before

/-- Runs of marks of one class: the first, the last, and the class. -/
def combiningRuns : Thunk (List (Nat × Nat × Nat)) := .mk fun _ =>
  ((splitOn ';' combiningRows.text).foldl addRun ([], 0)).1

/-- The class of a mark; every other character has class zero. -/
def combiningClass (n : Nat) : Nat :=
  match combiningRuns.get.find? fun (first, last, _) => first ≤ n && n ≤ last with
  | some (_, _, k) => k
  | none => 0

/-!
## Decompositions

What characters that may stand in names are made of: a letter and the marks on it, or the plain
letters that a letter of another width, style or form stands for.  These are the full compatibility
decompositions of the Unicode standard (version 14); Hangul syllables follow a rule and are not
listed.
-/

/-- The decompositions, as hexadecimal code points with a blank between them. -/
def decompositions : Thunk CodeTable := .mk fun _ => .ofPacked ⟨26807, "
7s`AQX%,xheHI.8Q|;Tk<x%^^3Q6PE?b8(>3*C'r(4hvHj!P+U[,cPl8hi+@=?232&[]XKDFeaA~7l.6Y,Du*'aqMB`+C;h;jIM(
MIQ(sN/W=mM*qU'7))Q(GfHf;%i1K<?c9~Nrds.SQj|Za&h!`+t5/MxRbB[wbFuTSM1Wu1d!pDRyoyi(_9.vJhwvP<LNQ*n*F*:n
f`t'1O1RLV6[FN;sDzzbYqpsOvK%HWrVn4.Y|Ygh/Cpua*zy,GMHJaaKwFA6AZ)>x(<lqL%Rbd;@gkz,E010/4z?fgQO1xVI`*^c
F7]On(R`DC>GPathV<I/0/6,?hFNouOoDMd)fqqPn=AdWhm&'wfgFVakR.f$$h1xB.K9[O_!X.^(kLEXL*|f^TYX&1B$Z>qA]kG'
Q&Ta3~O7~W^YtOA^okoeXA56G)]hr)H)VoCORY]~o2RAwJ9p<;8euwZ1/e'yn%66m~RVvv4r%Y+Pp!2[_,jj8jgFR6aOoyn<ehRh
9%cGxHs@(1CgN]]YhgI(XUwkfP^Z8~.vqf.):PY,MJK*Qi4mtf;!edUBpMh/jo&1L=!TH'AmV^!uwUtgb(%J+5nk|@4fTH*J1:EO
Bh<=q0(>~Hs7>)xb3<0R)BBLh/XDH60ZHp;v/E6RA^|/T(kzD?S>oDrQ9c//ru@DIft+TKb;aPM/z9`(*Cd24MbcBU3n7*$M4@LD
q(w+WzfdAP.4zut4!92627+AFS1jT%jB~A*l(pjcb*2/o2@x5LK5IdLD7cVb'x^v&tXDdW!is^tLqk7|?YqlE&luoE$rt~Z9Q7@r
q_T'k=m.8CM7<kA/(CspMTPP8xC>gXdrP@vG8J8@Q~<wj<!XcPO.]@aa%No<Z||J/QEa(&P.@4Ce.s>+8j/GCzf!vDYWMKM<en>F
qx/@B8/h>cQG`,2GJ!nTl|uh5vt7Y1E|'xIWq*Jp7|v<6/RDzQk^)P|n7Q8hT[b_;p[QPXf@=?0s&OIle1pDYAU|xRs;?nL4Qx|J
P4&MO39vR3tkNIXa'JKIy86<RV*gJzU~vwT3HHnH2<<$4^7]oyo0!gd9j~^D/[e(1aSP~>BnyaL!%+eW/`mnv@SiqH%1JEVsb`GJ
kCG.vdzicXFXs4/WZafK5bLo1KL(r5uO2&WelS:@mCJH1@!)!~kcv6Ddm9YI[=3+.AS*;/VUnCZ_J9~Ax4TPNpHDU3&4(545W9Jg
?c&g3gb5+cDuyB6nU/z<s~vw8:0UO92x,ERG+JYMgm8<M6/NE;^YycAp^q6MQw;pK;T67)t0BsrL:g;>0vofyq<)07`|dj!]M>=7
.x<P1&4lA:VeH*`ymr@qV<mNd,(K*<$?1|+WB!>4:1Px)2y5&U0>_@rF3'3O1kqu[=tVP<iB)_%,f|;%UPA_Hp6yPZ/Cb5Q75~?;
+dU^>*+lA&M^X^UgcNbh<lXk/::D~hJ0?5NFk)md'qf8f]'&&_8+oZ$%XekFXNG'F`GW=c/c[ht(KD~(zvk%5j(S6$pJ,+|XTtJs
+]kE6()K!6fKv13w/fHOsNst27TV=D]!`VcItMRaEFWL$z9XFqJiyrB~.Cm!t<V)Gg~YKX]K[Pp67%,o>:V2yhp^P8DEjoiKAblq
/lmVvt|W')[k]LSKzD>$K**.s$QT?zilfkfclJpEN>gwAhUkjl*H1/yl1^47+TigFoo|I<f1JR8|:5&lEdBz8j/EPPdYttXASf&S
Xa`P^b+a@3;X;I.`goSq_YwlsfZ>'NKQ^y3UNtF4RMf%GMn2$1L*X^y14=kpF8%eWkV.M>^$(>&vhM>XGuKm/NULE1&t+sy6tEV/
KQl<`/Wl=64*&9b.!;27a!noEWj%Qdm</dVk%LmUI:N1o)_I>?vU`8L_B.OrE3T:(`V1Nim1)NBx+97w@cNOWm]kM3h;tzMW<M`l
p7>,[D[CzNb?thj0`.6lYZ|3Gr2nsL6o>2Qv.soM)0h?JU^fj<ld2abnuvZ)L_v<?Co%7U=0C7<$eL(6!q5@lWKP%%Z^+O'[K4`M
r/K1g[vmjs~fW:EL:u$@~[h_,zH^K+o$`H(B>ucv[uu_0g*5Lyo@.=qE1VMeZ=Ea<+j=Cp)2BC46Y&MWcZ_rwT:t,6VXc.8P]O+)
kY@Xy$~W.]@]6Ir@?'9]KSI3o6?H*a'r`Z%!>@VXGcfXfT6m@KQKqmibip6,68l(8O=D^RqPRPXM9@(7Lag0.sp<GWL1k.qz1P1K
+@xze6JlBSURW$!fxef*Tep@IE8eEVN_RpQolrmjQ46Ew>^%.99[Pso6j:jlVMag'lWA~'aHZ;BQ9lR.qP.x^|bOJ=J92`h:j4.(
Lf|BvRgvIL1!,s1*U`~wf,`PF,D[fo850Md+_kg?7gMnk1Doeu.;F|[T(G[KF0`N0RmZy~7$0uILKB+fsGmLDFMVRttPYrjf4lA7
So%Zq_,G4evL'W%n1TRLhLp+UhkIcKk&Ja~n~S_c,GagOgL=w1)Xem5IN_IV:]n_ludQ9V4d;e$n'/oUYz)2.)M_rL:82kytK@98
ZSpf:A4a*0)2fS0Z6p_+TVc4%CJ5g+~*;2:qxY|^5~PsTYy_f[Ih!rD!~u~qukq&v|QsKQ3nzM2x4C('B@3SZ4>_O;pzMMl!8go=
ET]]unG;=1xrBm$J~8)mSQ8Hfehk7=muUG]1F]:`(%G$Ae4HU'p~k`4rmT$s/YO..*_+pGySd,xQIitJ_ZKNm7,0Sg?(mpn95<?t
MY0UUL*XI('(>(pCj`bpM)r(<B&S=15hQ<eCip[q/&isTcT|1Ao'nHG,tH=Dfq5HLck1rO%a?REW>JvKx>sEeAp5|v;*/~vTWxX%
z~)=RO/I0no:`j!b0ODbMUatfI<0NTXjD7h,_UL<yx'^n`*rQ8e$eb;[UyGo?~W=FL4*1Cylb]kEb~j0>Cw2x7_7wCweg,y,2Dhu
=XT&.~h_Mh2+WWX)<jM))r>p17*O.O+xxq7JGvu7$NPVui3$Yx+XX]%;J>JM425'T9lX+T.R5Rf<Y,MTM?TF$c)FbNv<~mF3@[C5
Ox8Es[l~un@NX8mmXBKA0_@ueMs[z@19lX;bUb*hzg0G5.$r16sGKwzWPPZ@`Feqgfj5`DxPzwEXp?UUzZo$shsY:YTPz9hCn[JL
hkM]shTnKtp4RWzCP3nL7f.Ss>i9+Sn8E8fd3C(iMS<_:6ginoA_/LgYtDcyp8|)nk/VMshd@'A6SzZ=CzE;mfYw,r`y$Q`lvXuQ
L_oL3_:MdCP=v;>>HJZi1;G[q'uplsy'|EcN'C0I@!5m<ntEgHI?sZr|L*toa>aa<Xj]1&4k=h15(WvO,E*R[X0F3^3@<,H|&Eq]
5S+AV77$_arM71@D>GNnWAg:!eEA/ae@yys$(pi@3tfl7%M`L9J.T6|C:3668JOYT9]6p*3`Ke)B~CtW7f;Xwxdc2=dTHY3c[yxZ
_<uF+pz:>3PSm0U8JLXnJ>KkWm9x*6A8%cQxRVFiM(^z?ctLWqV31WZbTsD:'CBMXk~V6]4uxSxDaB:~bFvRH[KMt^WF)lwz0qL%
wxRAgf&foIb0,eai[CXdxn*mV=k1!oP'iZh=!KrK;7Z%gRC7C=f]LI7p~bo`&VqT)r>I''&&n'dUoG(z/]MN+.@;,W@Yq<f_.8Q~
2O0t$n>hYr&J`g'>/SBk!~@cTjZ4^]+*'WJ3gx`<V_mc.!Hc^]`G`|`%(DF$IX&k=b*fM>ruNe^U23A4[Z&U%KMaqg3@6jmyOOwo
WDLfERW,j3B(*Qd0*Sq5qC?3J/xc!8hDr,vc6qhmdwZFubq[kMvT*$UiN~?,^GP$*_;hKkD&a+X9pS[5D!y7QcwDQ1jk8KAN&^iz
.pt*s1oKm.*)9%5w=8)'@!DEDw`[nMg5rI5[,7IUy:C4cI`h0Y*se;2al[%M^nQ.Qfdgkviz8H?Gw,3q$$]3?8lG&R<AiKclIL*]
LN[)MvQU^^!W(,UR(*G)'_3tk5;QW`YGEd:_<TI~Z_'9bZv^rB+8Ev9VZ0p0!_6XmwO[cS~h$2uSFyK3lR.6db8qk/%55hk=7YA=
cdJ1Yb5Dw`CtTA,*F^75g%7EAQ<;3ocT]ktZo6DC6mw!,LZ'JO,99%xUC8un6Si=[VFo~f)[oP&W?`2=39lIYoscn(f*&]yq$afz
~'Q9P1F8ZnZAzcz~`:pPF6n'OK,]Wv5H*(h2Vp7$~m[t85q<YE:uk*Ac6XW:&QGp[i!,.fxVvnet>tN8o'g<[:j8)Yq+DOrpI%AQ
;QWYk.x:gHD9:AEX$nJ!DkSTFc8>R@dT'i^OBg)zG&EN@?2/@xpVLhRaQhCE1ClpL%vfV3J?iAv`G].Uyb$>W,<@cSGCl$fviOS_
?mbL$42%1b2c]du&z_ZsT9CJwyW(.@]2x8iZUmYFmZTP_m'AumfxXh|5]/_+[I+(~kmmoC[CzrcyOM^AInyOt3G%vkUdG9bJ.s./
@k(WxHpUHWE7ZDa]59Rd_XtysDvtZB!|Ogsu<OD!`J1DN~Ml<+&Zto$Y42fG1E'?F)8NYNNZVsy>i@5@t_[fW?n04?'<G7fKOh5/
UO%y3!Fv;(%vcemCvA8tpFP.Z]D30J<Vk_bLC_x3>!vC6)1b8Dm!944DJRr/ma1>T3AXyI]8Qe<4oKBKx721MP8T$Q3(`@u/L^19
(fL6v!Le'F:W><U`00u;/^CEUa`@|BJ)E4U/H;3yNLcw~q&RBf6+V9!S`pY:`CxW(AIVI_?z~t&!5ma&n*h=7xTgjySx3d%Ik7c2
fE).Y!ZW]S!lWdKu/V/k*Yk8.$]^Y|zID/hq'~@DXEd>nxsPkeB$YBbm.Wd9'K&9o=,PZS<ozqD0[f+]ixO!NH|)+7bmDE7'aVwX
W8)%xVc+0'.u+4,fGTD1buzbL86+$4I@HSlhF*A(G.hRvJU|Ui9s)LioWG%q`oxMkB9~1S4*%RpUHXdi=v+>z>UC5l>ZbiE%>Zk'
tV04nkU?Hz.0HTn)j:WVPt@>24,^%2@e^!:TL||FhiGTccF(yEO|]T9me6`DAm$Ox*GL=O!NqQIa77w%$Gib0cLai8xb^zxT^xsL
KXr0q*j/RlYj2ovud8D(;FSXiiQF%'()2&[QWZKbwZc`9]>XWtON6[iFPN1kK9t,cO'6<46pvuCb=6b=mmr''.@5=`o|,,as3qWQ
trT_h<:8'iA[(r('s+ib=lP(A*QNpg~DA&%UkIL+Oc(S%r%DoA!P&Ws[(a?VwW$i;Y`8hAchccKEe>/S<Xc,gu&ueKaw[yKq38uE
|vg+4LxSbQ0YLjIhf&O5VunwsjO:&8V(KHGT7~G'_aFY>|lC/ac0k4.$(PAP+c.hDsn7CCNn)~Uv~h>SZpH'D^;Xuz&@.YRswSMJ
?qQ92a^NWvQDYtoZ?_;oj(gz?~X%q1N~T|,zH13Ni~iLv1pK(?fGg(qZES2)zA`X~Qv=@+tVo<yI:$T0SkTFCY+Ln=eqot^>qvo5
/zM&+1;s]L+tVraqk8i1Xp:z5w5_jbYL4S%NwgmR(madXTHf%ur@uY')!T=XHt%rv|9!/_,DY(q51KFxq_5b7F+aQE6u(H>(_isR
~a?JPgzqU6r(f7cY(/WcS5I6C?n+I9~_(+@=y6sGPE:7v8O+@=aE?A5%[Bnll+_Hs1LqnK;u[rf+3qv!X1M@mB/56yoXpag/xAE>
(M3K351J~lzgdu,+vTrG9U$aQa%R%o@7D7DnSBA:B3~RowxxAE<*g!D5kki]L=Eod`TI_E(/gV[]hO5:94f0d'sdY4s[TZOo<h`o
Um,8u16YBq7O3`meK!fp').a~5h>cF/7u.i7>G8ifu.j%Bi;<x:m]Z1,r^(n.[ui`ef3lP;LOdTyF<c'E>d@]Tf?<J*n8upI=f=I
U9l_ev6t22;>xVUYc)Uyo$'DB]4n5IFA|*O^:vt~>fVPv+s0c?n?JypvWAZ7N;`~4PnwWvFz6Tx7KSk[4mm2NRScAu06Dp!5Fn^_
iCIwe|,&_GL0q9H`MZUy1=Qk*rrA;,pOwe4WrTRv.?[Z@?Bx|h1!=8uW&HlztD_VlaETT97TyZ|e%:(^H8,>8I/jj~A~TrGpuhE3
Uh?,kJnJrXXF;0OOX$Lagl1f*RyQ!I_Fwf)kg/K~El986@_4/VR0.L!j,eTx&[Xb?l)~slbJwGaO;4Q:6*G(lTUTal8S_YoMdw8j
@[h4@*^gm3'Aa/nf`S=ErPlJ>,v.9k$z8_CZ,k5qaX[gs%8NsnB73:C=g_h7tH98VCSo)X)x$M+y[4`+leb`tAKVV58hN"⟩

/-!
## Compositions

Which letters a mark joins to one character, for characters that may stand in names, by the Unicode
standard (version 14).  Hangul syllables follow a rule and are not listed.
-/

def joiningMarks : Thunk (Array Nat) := .mk fun _ => boundariesOf ⟨194, "
XoAP>&%9GKng.Z47HVG<(z>B/mE:92F'91J?>%Tu4Z1/<|,k4r^'>L/|$<]/VdRZ%:%CdY|ElVs9rE=R9'ec_G!@kpS]a&/34|3~
rqfP<P;"⟩

/-- What a letter and the marks on it make, by what the character is taken apart into; the letters
from `0x958` to `0x95f` are not made again. -/
def compositions : Thunk (List (List Nat × Nat)) := .mk fun _ =>
  decompositions.get.flatMap fun (first, rows) =>
    (rowEntries rows).zipIdx.filterMap fun (entry, i) =>
      let parts := entryNumbers entry
      if parts.getLast?.any (inBoundaries joiningMarks.get) && (first + i) / 8 != 0x12b then
        some (parts, first + i)
      else none

/-!
## The normal form of names

Two spellings of a name are the same name if they have the same normal form: every character is
taken apart into plain letters and marks, the marks on a letter are put in order, and what belongs
together is joined again.  This is the compatibility form with composition (NFKC) of the Unicode
standard, for the characters that may stand in names.
-/

/-! ### Hangul syllables -/

/-- The first syllable, and the first of the leading, middle and closing letters; the letter before
the first closing one stands for none. -/
def syllableBase : Nat := 0xac00
def leadBase : Nat := 0x1100
def vowelBase : Nat := 0x1161
def tailBase : Nat := 0x11a7

/-- How many leading, middle and closing letters there are. -/
def leadCount : Nat := 19
def vowelCount : Nat := 21
def tailCount : Nat := 28

def syllableLetters? (n : Nat) : Option (List Nat) :=
  let i := n - syllableBase
  if n < syllableBase || leadCount * vowelCount * tailCount ≤ i then none
  else
    let tail := i % tailCount
    some ([leadBase + i / tailCount / vowelCount, vowelBase + i / tailCount % vowelCount] ++
      if tail = 0 then [] else [tailBase + tail])

/-- The syllable of two letters, or of a syllable without a closing letter and such a letter. -/
def joinLetters? (a b : Nat) : Option Nat :=
  if leadBase ≤ a && a < leadBase + leadCount && vowelBase ≤ b && b < vowelBase + vowelCount then
    some (syllableBase + ((a - leadBase) * vowelCount + (b - vowelBase)) * tailCount)
  else if syllableBase ≤ a && a < syllableBase + leadCount * vowelCount * tailCount &&
      (a - syllableBase) % tailCount = 0 && tailBase < b && b < tailBase + tailCount then
    some (a + (b - tailBase))
  else none

/-! ### Taking apart -/

def decompose (n : Nat) : List Nat :=
  if n < 0x80 then [n]
  else
    match syllableLetters? n with
    | some letters => letters
    | none =>
      match entryNumbers (decompositions.get.entry n) with
      | [] => [n]
      | parts => parts

/-- Puts a mark with its class among marks in order: behind those of smaller classes, in front of
those of its own. -/
def insertMark (m : Nat × Nat) : List (Nat × Nat) → List (Nat × Nat)
  | [] => [m]
  | x :: r => if x.2 < m.2 then x :: insertMark m r else m :: x :: r

/-- Orders each group of marks by their classes and keeps the order inside a class. -/
def orderMarks : List (Nat × Nat) → List (Nat × Nat)
  | [] => []
  | (n, k) :: r =>
    let rest := orderMarks r
    if k = 0 then (n, 0) :: rest
    else
      let group := rest.takeWhile fun m => m.2 != 0
      insertMark (n, k) group ++ rest.drop group.length

/-! ### Joining -/

/-- What a letter and a mark make together. -/
def compose? (a b : Nat) : Option Nat :=
  match joinLetters? a b with
  | some n => some n
  | none => compositions.get.lookup (decompose a ++ [b])

/-- Joins characters to the last starting character where they belong together: `starter` is that
character, `between` what stands after it, in reverse, and `last` the class of what came last. -/
def joinFrom (starter : Nat) (between : List Nat) (last : Nat) : List (Nat × Nat) → List Nat
  | [] => starter :: between.reverse
  | (n, k) :: r =>
    let blocked := !between.isEmpty && (last = 0 || k ≤ last)
    match if blocked then none else compose? starter n with
    | some joined => joinFrom joined between last r
    | none =>
      if k = 0 then starter :: between.reverse ++ joinFrom n [] 0 r
      else joinFrom starter (n :: between) k r

/-- Joins what belongs together; marks in front of the first starting character stay. -/
def joinAll : List (Nat × Nat) → List Nat
  | [] => []
  | (n, k) :: r => if k = 0 then joinFrom n [] 0 r else n :: joinAll r

def normalCodes (codes : List Nat) : List Nat :=
  joinAll (orderMarks ((codes.flatMap decompose).map fun n => (n, combiningClass n)))

def normalForm (name : List Char) : List Char :=
  if name.all fun c => c.toNat < 0x80 then name
  else (normalCodes (name.map Char.toNat)).map Char.ofNat

end SmellLint.Text
