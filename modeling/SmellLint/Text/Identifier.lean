import SmellLint.Text.CodeTable

/-!
# Identifier characters

The characters that may start a name and those that may continue one, by the Unicode standard's
identifier properties (version 14) with the underscore as a starting character.
-/

namespace SmellLint.Text

/-- Where the class of starting characters changes beyond ASCII. -/
def identifierStartBoundaries : Thunk (Array Nat) := .mk fun _ => boundariesOf ⟨3099, "
7smFmb[9/X45GZx54~Sgl^vhh~4Gc8I&Yb;_v<6aoXuuPgM)3,Mj!o`f+_39$8n*pEC,3'(_z?^J9d4QLm%C3LR>CEjs84eY@PS|
z&SuC<R;WKtXy~Fary='LBXQ;vOuY:wtCW%/yGIi[s/Z`t_.jD?(%6M[+0CoX*Il?i:&2_pP*G[=ADLmmn80Y7b_IOy;U2j*$,yt
`$,Jt;g&gsY2|;+gcH7DAIymo6FpCS(Q]h$p<RuWin+@)KYA^m?GhF)TI+P!&d]Ereo>GWby2PS5ycXmzNV46>Rv[aP>ZJQ.!y]l
kwE|4Fv8+9Bm]>/JL`3(Z=[rJgyzq)nKdvmFO=PY5IeITZ8T5w+)]Q6@2H5k2&>%p_43.XZzWac<PSz6gkJx/B+w!b+Gnt?,:HC.
N@7uUTI*+~lnf(wY%|W`lI4j|QDJSz!dh,O`c2<e1,Y%s|a>@4<rI_yo!X^_gJDp*%GsuKkrwNK1B[G=S)@PVcmZe>p1OMXFG*8W
36XVhMS/I)R>T2k<JPb/3,$wD[w'%h@OZA:RKO=6Ih=XtDE<pEyhC$7O1txQ%6xF:+5K1Li!1/so)[Z!g0GAjwAkC>y9I'x+lKZE
Hi&Thvapd9@IIel;/amx/<6ty~SAljZtDoL|f,%sE>LTk0$C,.9FWm6p;a6Ey'g%sHH2v4FdBAm@b|'Ng=[HRPHT(lsWz=`>`q*a
yI/WFNeK!8k]QpgaCoP>T,66?>_5wSijaEPtUkkU&SDF+!uH/d/TS.(~C!,YMvBw_J<B,?o(8LiSQ'CbJP3:4^G%6rqa)*tcID>I
7idG+.K[)XjWI~V<k6?*^W:.TmQ6vxfP1C>UH0XcgRbfMsGb&k>l~sA]wK?b_gDPS$Pdh6dQZbE<,Tk3~7:Bi;Pa[Upkf:4'XX5g
_'~UugHR'0r2K*KV;+%U|E;Ys2I*d&y@>)=>;@5=.dJa|/q?TMF<uvvFWbPXF&4K&nf0cL7ONiXnLZzF`UEBbp$LvRQE.L<tP=:Y
Z69rc;^Lo&x:!T0`:!uyEsSV|h~'LX0'JVbo:8?Qv+IXY!ZM>Ntq?J[3GU=!3PI0?M1[C:?iLYf(o8>S,i^X`/@60/0sjki,&:N&
jxs$_0QI8!JAG~Vl?$~vy7i8(oqKXN4y'TGXs$$S[%b:[1L=:F>FC>Kb&Ht*PQw*|L_oPwuaX[fxT.GH(Q;'PxsQsQEu%%f=he/"⟩

/-- Where the class of characters that continue a name, but cannot start one, changes beyond
ASCII. -/
def identifierExtraBoundaries : Thunk (Array Nat) := .mk fun _ => boundariesOf ⟨1674, "
7HgF&D3_k^N[[HE)ZXo6cj%&mu7$eQ~>H=mR]G[B*&;nr5g@cXYWNro$f=CyS]P_IJ*`<8h~*+@Fs'Z37@rY30,=yH6A2UM'zHB:
<D<A28&^ZWP~e5<&sY2%Ra>dXL&>,8;qB:QtC|%F:~_idv?(Ew7uxm[T;V(HW,Kk0Vlf1okAWaKa+B~C7)|Zwi:IfgarL$@|6r,u
RjztP]8wNCN!IqmphQ:GHtAcM+y1`0&9Y~QPk2yd[b8=EJ&L$TnQ)E)fe=;aCtV&Ds5z`g|*wZ(hm+LJsHWsML&20@QwMRSh[h:F
sngJYJy~z<M*zSUt[$3PPGE1f*2[^Wc![t)&m4k|.y/2!ZlR3H9h;TI,KUpWf?u~Ezq&7no~vDvKgIN0DVcOK[o_sXg|k`.g7QGz
&A~+>:Re)`77ADM2kzM`xnZ=ie>=*,^:o[m96,e6<Wm*c)mhF1G,0B!;CXme7MOP<8qP1s7Af+Ria'!sLZgjEXk[kV[8CRQJV.ft
Q0=7@gU`&Zjyo5TL!m'j/dulJ+%ELsp_LwS|'N2*7^vFZ7cRqMJovL.FMtI^WSD=D+Hdqv1*_apY+(|?G3(l_@(I[hpoD9OaSgdH
3M_K*v@pF]Aba^sj[.`piPjpqSN9g$h@eBpI3<UED(?+btE6CA>JX[cEhj=@wKmrT9W`bAt%Ll.sXZ;QBl`;oiI2wQ(j7l)mR+Kc
p"⟩

def isIdentifierStart (c : Char) : Bool :=
  if c.toNat < 0x80 then c.isAlpha || c == '_'
  else inBoundaries identifierStartBoundaries.get c.toNat

/-- Whether `c` may stand inside a name. -/
def isIdentifierPart (c : Char) : Bool :=
  isIdentifierStart c ||
    if c.toNat < 0x80 then c.isDigit else inBoundaries identifierExtraBoundaries.get c.toNat

def isIdentifier : List Char → Bool
  | [] => false
  | c :: r => isIdentifierStart c && r.all isIdentifierPart

end SmellLint.Text
