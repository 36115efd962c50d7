import StatusList.Domain.Composition

/-!
# Joiners

In some scripts letters are joined to their neighbours. Two letters without a
shape of their own say whether they are: a *joiner* and a *non-joiner*. They may
only stand where they make a difference.

* `joinersFit`: whether all of them do so.
-/

namespace StatusList.Domain

/-- The sides on which a letter is joined. -/
inductive Joining where
  /-- To the letter after it. -/
  | after
  /-- To the letter before it. -/
  | before
  /-- To both. -/
  | both
  /-- The letters around it are joined as if it were not there. -/
  | through
  deriving DecidableEq, Repr, Inhabited

/-- The sides that a table writes as a text. -/
def readJoining (text : List Char) : Joining :=
  if text = ['L'] then .after
  else if text = ['R'] then .before
  else if text = ['D'] then .both
  else .through

/-- The letters that are joined. -/
def joinings : Table Joining := .ofText readJoining
  "@300 T~70 @483 T~7 @591 T~2D @5BF T @5C1 T~2 @5C4 T~2 @5C7 T @610 T~B @620 D @622 R~4 D R D R
   D~5 R~4 D~D @641 D~7 R D~2 T~15 @66E D~2 T R~3 @679 D~F R~12 D~26 R D~2 R~9 D R D R D~2 R~2
   @6D5 R T~7 @6DF T~6 @6E7 T~2 @6EA T~4 R~2 @6FA D~3 @6FF D @710 R T D~3 R~5 D~4 R D~9 R D R D R
   D~2 R T~1B @74D R D~B R~3 D~F R~2 D~4 R D R~2 D~3 R~2 D~6 @7A6 T~B @7CA D~21 T~9 @7FD T @816
   T~4 @81B T~9 @825 T~3 @829 T~5 @840 R D~5 R~2 D R D~A R D R~3 T~3 @860 D @862 D~4 @867 R D
   R~1A @886 D @889 D~5 R D @897 T~9 D~A R~3 @8AE R D~2 R~2 D~6 R D~F @8CA T~39 @93A T @93C T
   @941 T~8 @94D T @951 T~7 @962 T~2 @981 T @9BC T @9C1 T~4 @9CD T @9E2 T~2 @9FE T~5 @A3C T @A41
   T~11 @A70 T~2 @A75 T @A81 T~2 @ABC T @AC1 T~8 @ACD T @AE2 T~2 @AFA T~8 @B3C T @B3F T @B41 T~4
   @B4D T~A @B62 T~2 @B82 T @BC0 T @BCD T @C00 T @C04 T @C3C T @C3E T~3 @C46 T~11 @C62 T~2 @C81 T
   @CBC T @CBF T @CC6 T @CCC T~2 @CE2 T~2 @D00 T~2 @D3B T~2 @D41 T~4 @D4D T @D62 T~2 @D81 T @DCA
   T @DD2 T~5 @E31 T @E34 T~7 @E47 T~8 @EB1 T @EB4 T~9 @EC8 T~7 @F18 T~2 @F35 T @F37 T @F39 T
   @F71 T~E @F80 T~5 @F86 T~2 @F8D T~30 @FC6 T @102D T~4 @1032 T~6 @1039 T~2 @103D T~2 @1058 T~2
   @105E T~3 @1071 T~4 @1082 T @1085 T~2 @108D T @109D T @135D T~3 @1712 T~3 @1732 T~2 @1752 T~2
   @1772 T~2 @17B7 T~7 @17C6 T @17C9 T~B @17DD T @1807 D @1820 D~59 @1885 T~2 D~22 T D @1920 T~3
   @1927 T~2 @1932 T @1939 T~3 @1A17 T~2 @1A1B T @1A56 T @1A58 T~9 @1A62 T @1A65 T~8 @1A73 T~D
   @1AB0 T~54 @1B34 T @1B36 T~5 @1B3C T @1B42 T @1B6B T~9 @1B80 T~2 @1BA2 T~4 @1BA8 T~2 @1BAB T~3
   @1BE6 T @1BE8 T~2 @1BED T @1BEF T~3 @1C2C T~8 @1C36 T~2 @1CD0 T~3 @1CD4 T~D @1CE2 T~7 @1CED T
   @1CF4 T @1CF8 T~2 @1DC0 T~40 @20D0 T~21 @2CEF T~3 @2D7F T @2DE0 T~20 @302A T~4 @3099 T~2 @A66F
   T~4 @A674 T~A @A69E T~2 @A6F0 T~2 @A802 T @A806 T @A80B T @A825 T~2 @A82C T @A840 D~32 L @A8C4
   T~2 @A8E0 T~12 @A8FF T @A926 T~8 @A947 T~B @A980 T~3 @A9B3 T @A9B6 T~4 @A9BC T~2 @A9E5 T @AA29
   T~6 @AA31 T~2 @AA35 T~2 @AA43 T @AA4C T @AA7C T @AAB0 T @AAB2 T~3 @AAB7 T~2 @AABE T~2 @AAC1 T
   @AAEC T~2 @AAF6 T @ABE5 T @ABE8 T @ABED T @FB1E T @FE20 T~10 @101FD T @102E0 T @10376 T~5
   @10A01 T~F @10A38 T~8 @10AC0 D~5 R @10AC7 R @10AC9 R~2 @10ACD L R~5 D~4 L D~5 R D~3 R @10AE4 R
   T~2 @10AEB D~4 R @10B80 D R D R~3 D~3 R D~2 R D R~2 D R @10BA9 R~4 D~2 @10D00 L D~21 R D T~4
   @10D69 T~5 @10EAB T~2 @10EC2 R D~2 @10EC6 D~2 @10EFA T~6 @10F30 D~3 R D~11 @10F46 T~B D~3 R
   @10F70 D~4 R~2 D~C T~4 @10FB0 D @10FB2 D~2 R~3 @10FB8 D R~2 D~2 R D~2 @10FC1 D R~2 D @10FC9 R
   D L @11001 T @11038 T~F @11070 T @11073 T~2 @1107F T~3 @110B3 T~4 @110B9 T~2 @110C2 T @11100
   T~3 @11127 T~5 @1112D T~8 @11173 T @11180 T~2 @111B6 T~9 @111C9 T~4 @111CF T @1122F T~3 @11234
   T @11236 T~2 @1123E T @11241 T @112DF T @112E3 T~8 @11300 T~2 @1133B T~2 @11340 T @11366 T~F
   @113BB T~6 @113CE T @113D0 T @113D2 T @113E1 T~2 @11438 T~8 @11442 T~3 @11446 T @1145E T
   @114B3 T~6 @114BA T @114BF T~2 @114C2 T~2 @115B2 T~4 @115BC T~2 @115BF T~2 @115DC T~2 @11633
   T~8 @1163D T @1163F T~2 @116AB T @116AD T @116B0 T~6 @116B7 T @1171D T @1171F T @11722 T~4
   @11727 T~5 @1182F T~9 @11839 T~2 @1193B T~2 @1193E T @11943 T @119D4 T~8 @119E0 T @11A01 T~A
   @11A33 T~6 @11A3B T~4 @11A47 T @11A51 T~6 @11A59 T~3 @11A8A T~D @11A98 T~2 @11B60 T @11B62 T~3
   @11B66 T @11C30 T~E @11C3F T @11C92 T~16 @11CAA T~7 @11CB2 T~2 @11CB5 T~2 @11D31 T~15 @11D47 T
   @11D90 T~2 @11D95 T @11D97 T @11EF3 T~2 @11F00 T~2 @11F36 T~5 @11F40 T @11F42 T @11F5A T
   @13440 T @13447 T~F @1611E T~C @1612D T~3 @16AF0 T~5 @16B30 T~7 @16F4F T @16F8F T~4 @16FE4 T
   @1BC9D T~2 @1CF00 T~47 @1D167 T~3 @1D17B T~8 @1D185 T~7 @1D1AA T~4 @1D242 T~3 @1DA00 T~37
   @1DA3B T~32 @1DA75 T @1DA84 T @1DA9B T~15 @1E000 T~90 @1E130 T~7 @1E2AE T @1E2EC T~4 @1E4EC
   T~4 @1E5EE T~2 @1E6E3 T @1E6E6 T @1E6EE T~2 @1E6F5 T @1E8D0 T~7 @1E922 D~22 T~8"

/-- Whether the first letter that counts is joined on a side. -/
def joins (side : Joining) (text : List Char) : Bool :=
  let counting := text.dropWhile fun c => joinings.value? c = some .through
  (counting.head?.bind joinings.value?).any fun joining => joining = .both ∨ joining = side

/-- The class of the marks that leave a letter without its vowel. -/
def vowelKiller : Nat := 9

/-- Whether a joiner fits between the letters `before` it, the latest first, and those
    after it: the vowel of the letter before it is left out, or, for the non-joiner,
    the letters around it are joined. -/
def joinerFits (c : Char) (before after : List Char) : Bool :=
  before.head?.any (markClass · = vowelKiller)
    ∨ (c = '\u200C' ∧ joins .after before ∧ joins .before after)

/-- Whether all joiners of a text fit, where `before` are the letters before it, the
    latest first. -/
def joinersFit (before : List Char) : List Char → Bool
  | [] => true
  | c :: rest =>
    (c ∉ ['\u200C', '\u200D'] ∨ joinerFits c before rest) ∧ joinersFit (c :: before) rest

end StatusList.Domain
