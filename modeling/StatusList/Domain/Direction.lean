import StatusList.Domain.Table

/-!
# Direction of writing

Letters are written from left to right or from right to left; digits, marks and
signs follow the letters around them. A name in which both directions meet could
be read in two ways, so each of its labels has to keep to one.

* `keepsDirection`: whether a label keeps to one direction.
-/

namespace StatusList.Domain

/-- How a letter takes part in the direction of writing. -/
inductive Direction where
  /-- From left to right. -/
  | rightward
  /-- From right to left. -/
  | leftward
  /-- A digit of Europe. -/
  | european
  /-- A digit of the Arabic scripts. -/
  | arabic
  /-- A mark on the letter before it. -/
  | mark
  /-- Anything else. -/
  | neutral
  deriving DecidableEq, Repr, Inhabited

/-- The direction that a table writes as a text. -/
def readDirection (text : List Char) : Direction :=
  if text = ['R'] then .leftward
  else if text = ['E'] then .european
  else if text = ['A'] then .arabic
  else if text = ['M'] then .mark
  else .neutral

/-- The letters that are not written from left to right. -/
def directions : Table Direction := .ofText readDirection
  "@A1 N~37 @F7 N @2B9 N~2 @2C2 N~E @2D2 N~1C @2EF N~11 M~70 @375 N @3F6 N @483 M~7 @58A N~6 @591
   M~2D R M R M~2 R M~2 R M @5D0 R~25 @606 N~2 R N~2 R N R N~2 M~B R~30 M~15 A~A N A~2 R~3 M R~65
   M~7 @6DE N M~6 R~2 M~2 N M~4 R~2 E~A R~17 M R~1E M~1B @74D R~59 M~B R~3A M~9 R~2 N~4 R @7FD M
   R~18 M~4 R M~9 R M~3 R M~5 @830 R~29 M~3 @85E R~32 @897 M~9 R~2A M~39 @93A M @93C M @941 M~8
   @94D M @951 M~7 @962 M~2 @981 M @9BC M @9C1 M~4 @9CD M @9E2 M~2 @9F2 N~2 @9FB N @9FE M~5 @A3C
   M @A41 M~11 @A70 M~2 @A75 M @A81 M~2 @ABC M @AC1 M~8 @ACD M @AE2 M~2 @AF1 N @AFA M~8 @B3C M
   @B3F M @B41 M~4 @B4D M~A @B62 M~2 @B82 M @BC0 M @BCD M @BF3 N~8 @C00 M @C04 M @C3C M @C3E M~3
   @C46 M~11 @C62 M~2 @C78 N~7 @C81 M @CBC M @CCC M~2 @CE2 M~2 @D00 M~2 @D3B M~2 @D41 M~4 @D4D M
   @D62 M~2 @D81 M @DCA M @DD2 M~5 @E31 M @E34 M~7 @E3F N @E47 M~8 @EB1 M @EB4 M~9 @EC8 M~7 @F18
   M~2 @F35 M @F37 M @F39 M N~4 @F71 M~E @F80 M~5 @F86 M~2 @F8D M~30 @FC6 M @102D M~4 @1032 M~6
   @1039 M~2 @103D M~2 @1058 M~2 @105E M~3 @1071 M~4 @1082 M @1085 M~2 @108D M @109D M @135D M~3
   @1390 N~A @1400 N @169B N~2 @1712 M~3 @1732 M~2 @1752 M~2 @1772 M~2 @17B7 M~7 @17C6 M @17C9
   M~B @17DB N @17DD M @17F0 N~1B @1885 M~2 @18A9 M @1920 M~3 @1927 M~2 @1932 M @1939 M~3 @1940
   N~6 @19DE N~22 @1A17 M~2 @1A1B M @1A56 M @1A58 M~9 @1A62 M @1A65 M~8 @1A73 M~D @1AB0 M~54
   @1B34 M @1B36 M~5 @1B3C M @1B42 M @1B6B M~9 @1B80 M~2 @1BA2 M~4 @1BA8 M~2 @1BAB M~3 @1BE6 M
   @1BE8 M~2 @1BED M @1BEF M~3 @1C2C M~8 @1C36 M~2 @1CD0 M~3 @1CD4 M~D @1CE2 M~7 @1CED M @1CF4 M
   @1CF8 M~2 @1DC0 M~40 @200C N~B6 @20D0 M~21 @2104 N~4A @218A N~1AC @237B N~1A @2396 N~316 @26AD
   N~153 @2900 N~300 @2CE5 N~6 @2CEF M~3 @2CF9 N~7 @2D7F M @2DE0 M~20 N~205 @3008 N~19 @302A M~4
   @3030 N @3037 N @303D N~3 @3099 M~2 @30A0 N @30FB N @31C0 N~26 @4DC0 N~40 @A490 N~37 @A60D N~3
   @A66F M~4 N M~A N~2 @A69E M~2 @A6F0 M~2 @A700 N~22 @A788 N @A802 M @A806 M @A80B M @A825 M~2
   @A828 N~4 M @A838 N~2 @A874 N~4 @A8C4 M~2 @A8E0 M~12 @A8FF M @A926 M~8 @A947 M~B @A980 M~3
   @A9B3 M @A9B6 M~4 @A9BC M~2 @A9E5 M @AA29 M~6 @AA31 M~2 @AA35 M~2 @AA43 M @AA4C M @AA7C M
   @AAB0 M @AAB2 M~3 @AAB7 M~2 @AABE M~2 @AAC1 M @AAEC M~2 @AAF6 M @AB6A N~2 @ABE5 M @ABE8 M
   @ABED M @FB1E M @FBB2 R~11 N~23D @FE20 M~10 @FE45 N~2 @FE73 R @10101 N @10140 N~4D @10190 N~11
   @101FD M @102E0 M E~1B @10376 M~5 @10800 R~11C @1091F N R~E1 M~F R~26 @10A38 M~8 R~A5 M~2
   @10AEB R~4B @10B39 N~7 R~1E4 M~4 @10D30 A~1A R~6 @10D69 M~5 N R~21 @10E60 A~1F @10E80 R~2A
   @10EAB M~2 R~1B @10ED0 N~9 @10EFA M~6 R~46 M~B R~31 M~4 R~71 @11001 M @11038 M~F @11052 N~14
   @11070 M @11073 M~2 @1107F M~3 @110B3 M~4 @110B9 M~2 @110C2 M @11100 M~3 @11127 M~5 @1112D M~8
   @11173 M @11180 M~2 @111B6 M~9 @111C9 M~4 @111CF M @1122F M~3 @11234 M @11236 M~2 @1123E M
   @11241 M @112DF M @112E3 M~8 @11300 M~2 @1133B M~2 @11340 M @11366 M~F @113BB M~6 @113CE M
   @113D0 M @113D2 M @113E1 M~2 @11438 M~8 @11442 M~3 @11446 M @1145E M @114B3 M~6 @114BA M
   @114BF M~2 @114C2 M~2 @115B2 M~4 @115BC M~2 @115BF M~2 @115DC M~2 @11633 M~8 @1163D M @1163F
   M~2 @11660 N~D @116AB M @116AD M @116B0 M~6 @116B7 M @1171D M @1171F M @11722 M~4 @11727 M~5
   @1182F M~9 @11839 M~2 @1193B M~2 @1193E M @11943 M @119D4 M~8 @119E0 M @11A01 M~6 @11A09 M~2
   @11A33 M~6 @11A3B M~4 @11A47 M @11A51 M~6 @11A59 M~3 @11A8A M~D @11A98 M~2 @11B60 M @11B62 M~3
   @11B66 M @11C30 M~E @11C92 M~16 @11CAA M~7 @11CB2 M~2 @11CB5 M~2 @11D31 M~15 @11D47 M @11D90
   M~2 @11D95 M @11D97 M @11EF3 M~2 @11F00 M~2 @11F36 M~5 @11F40 M @11F42 M @11F5A M @11FD5 N~1D
   @13440 M @13447 M~F @1611E M~C @1612D M~3 @16AF0 M~5 @16B30 M~7 @16F4F M @16F8F M~4 @16FE2 N
   @16FE4 M @1BC9D M~2 @1CC00 N~2F1 @1CF00 M~47 @1D167 M~3 @1D17B M~8 @1D185 M~7 @1D1AA M~4
   @1D1E9 N~59 M~3 N @1D300 N~57 @1DA00 M~37 @1DA3B M~32 @1DA75 M @1DA84 M @1DA9B M~15 @1E000
   M~90 @1E130 M~7 @1E2AE M @1E2EC M~4 @1E2FF N @1E4EC M~4 @1E5EE M~2 @1E6E3 M @1E6E6 M @1E6EE
   M~2 @1E6F5 M @1E800 R~D0 M~7 @1E922 R~22 M~7 R~3F3 @1EEF0 N~240 @1F16D N~3 @1F1AD N @1F260
   N~99B"

/-- How a letter takes part in the direction of writing. -/
def direction (c : Char) : Direction :=
  if c.toNat < 0x80 then
    if c.isAlpha then .rightward else if c.isDigit then .european else .neutral
  else (directions.value? c).getD .rightward

/-- Whether a name has to be looked at: a letter of it is not read from left to
    right. -/
def hasTwoDirections (name : List Char) : Bool :=
  name.any fun c => direction c = .leftward ∨ direction c = .arabic

/-- Whether a label keeps to one direction. It begins with a letter of the direction
    and ends, marks apart, with one or with a digit. Written from left to right it
    has nothing of the other direction; written from right to left it has digits of
    one kind only. -/
def keepsDirection (label : List Char) : Bool :=
  match label.map direction with
  | [] => true
  | first :: rest =>
    let rest := (rest.reverse.dropWhile (· = .mark)).reverse
    let last := rest.getLast?
    match first with
    | .rightward =>
      last.all (· ∈ [.rightward, .european]) ∧ .leftward ∉ rest ∧ .arabic ∉ rest
    | .leftward =>
      last.all (· ∈ [.leftward, .european, .arabic]) ∧ .rightward ∉ rest
        ∧ ¬(.european ∈ rest ∧ .arabic ∈ rest)
    | _ => false

end StatusList.Domain
