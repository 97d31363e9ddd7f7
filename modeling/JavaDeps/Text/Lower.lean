import JavaDeps.Text.Cased

/-!
# Lower case

Lower-casing of whole texts. Every character has one lower-case form, with two exceptions: the
dotted capital I becomes two characters, and a capital sigma at the end of a word takes the final
form: after a cased letter and not before one.
-/

namespace JavaDeps.Text

/-- The runs that numbers stand for. Of each run they give its distance from the last code point of
the run before, its number of steps, the step and twice the shift, with one more for a shift down.
-/
def readRuns (last : Nat) : List Nat → List (Nat × Nat × Nat × Int)
  | gap :: count :: step :: shift :: rest =>
    let first := last + gap
    let last := first + count * step
    (first, last, step, if shift % 2 == 0 then shift / 2 else -(shift / 2 : Nat)) ::
      readRuns last rest
  | _ => []

/-- Runs of code points `(first, last, step, shift)` from 128 on: every `step`-th code point from
`first` to `last` has its lower-case form `shift` further. -/
def lowerRuns : List (Nat × Nat × Nat × Int) := readRuns 0 (Ranges.numbers [
   "`89$^*%)$^*E:%%'%%%&*%%&9%%%#$a2$%%%'#$d8$$%%%#$d0$#$%%$$d.$#$%&#$_O$#$d($#$d*$#$%%#$d.$#$d2%#",
   "$d:$#$d6$#$%'#$d:$#$d>%#$d@$%%%%#$dH$#$%%#$dH&#$%%#$dH$#$%%$$dF$$%%%#$dJ$#$%'#$%+#$'$#$%%#$'$#",
   "$%%#$'$+%%&+%%&#$'$$%%%#$`;$#$^[$6%%%#$aD%+%%+#$ioO$#$%%#$bM$#$ioI&#$%%#$cT$#$_;$#$_?$'%%b($%%",
   "'#$%,#$a'*#$^6%%$^4%#$_1%$$_/%3$^*%+$^*G#$3,.%%)#$_*&#$%%#$2$#$%&%$aD$2$_Q$B$^*T3%%-=%%%#$A$)%",
   "%&R%%&H$^J^qKH$ekU%#$ekU)#$ekUiJ^9$^ljH$($3^eHM$`lC&%$`lCbG^4%%-#$ex/%R%%-*$4,($4.*$4,*$4,($4/",
   "&%4,*$4<*$4,*$4,*$4,$$4$$$_F$#$6/&$`%$#$6/$$4$$$`A0$$4$$$`Y$#$2/$$a@$$$a<$#$6b0#$etO'#$fu,$#$f",
   "pW*#$[Q2$C7#$%k8<$W^_4R$^JT#$%%#$imZ$#$ajS$#$im:&%%%%#$io2$#$in-$#$io8$#$io6%#$%&#$%,$$ip?$T%%",
   ",$%%(#$%oaQ9%%70%%_9)%%'A%%.$%%%#$^hfM$'%%(#$%%#$^pjA&$%%',%%%#$^pk@$#$^pkV$#$^pkN$#$^pk:$#$^p",
   "k@%#$^piN$#$^pjE$#$^piT$#$^_C$*%%%#$^K$#$^pk>$#$^hhC$$%%*#$%)$%%@#$%j^@<$^*r<J$^:_:F$^:_N-$^8%",
   "1$^8%)$^8%$$^8^^'U$_1^tDB$^*iu$B$^*ogND$^."])

def lowerChar (c : Char) : Char :=
  let n := c.toNat
  if n < 128 then (if 65 ≤ n && n ≤ 90 then Char.ofNat (n + 32) else c)
  else match lowerRuns.find? (fun r => r.1 ≤ n && n ≤ r.2.1 && (n - r.1) % r.2.2.1 == 0) with
    | some r => Char.ofNat ((n : Int) + r.2.2.2).toNat
    | none => c

/-- Lower-cases a text. The characters before it are given in reverse. -/
def lowerFrom (before : List Char) : List Char → List Char
  | [] => []
  | c :: rest =>
    let low :=
      if c.toNat == 0x130 then ['i', Char.ofNat 0x307]
      else if c.toNat == 0x3A3 then
        [Char.ofNat (if startsCased before && !startsCased rest then 0x3C2 else 0x3C3)]
      else [lowerChar c]
    low ++ lowerFrom (c :: before) rest

def lower (s : String) : String := String.ofList (lowerFrom [] s.toList)

end JavaDeps.Text
