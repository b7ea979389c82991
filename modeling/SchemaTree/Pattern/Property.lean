/-!
# Names of Unicode properties

A class of characters can be named by a property that is true of them, by a
general category, by a script, or by a property with a value.  Names are compared
in lower case, without blanks, underscores and minuses, and without `is` in
front; abbreviations count as names.

* `lookUp`: whether a name, or a property with a value, names a class.
-/

namespace SchemaTree.Pattern.Property

/-- The words of a text. -/
def words (s : String) : List String := (s.splitOn " ").filter (· ≠ "")

/-- A name in the form in which names are compared. -/
def normalize (name : String) : String :=
  let cs := name.toList
  let isPrefixed := match cs with
    | a :: b :: _ => (a = 'i' || a = 'I') && (b = 's' || b = 'S')
    | _ => false
  let kept := (if isPrefixed then cs.drop 2 else cs).filter fun c =>
    c.toNat < 0x80 && c ≠ ' ' && c ≠ '_' && c ≠ '-'
  let lower := String.ofList (kept.map Char.toLower)
  if isPrefixed && lower = "c" then "isc" else lower

/-- Properties that are true or false of a character. -/
def binary : List String :=
  words ("asciihexdigit ahex alphabetic alpha bidicontrol bidic caseignorable ci cased " ++
    "changeswhencasefolded cwcf changeswhencasemapped cwcm changeswhenlowercased cwl " ++
    "changeswhentitlecased cwt changeswhenuppercased cwu dash defaultignorablecodepoint di " ++
    "deprecated dep diacritic dia emoji emojicomponent ecomp emojimodifier emod " ++
    "emojimodifierbase ebase emojipresentation epres extendedpictographic extpict extender " ++
    "ext graphemebase grbase graphemeextend grext graphemelink grlink hexdigit hex hyphen " ++
    "idsbinaryoperator idsb idstrinaryoperator idst idsunaryoperator idsu " ++
    "idcompatmathcontinue idcompatmathstart idcontinue idc idstart ids ideographic ideo " ++
    "incb indicconjunctbreak joincontrol joinc logicalorderexception loe lowercase lower " ++
    "math modifiercombiningmark mcm noncharactercodepoint nchar otheralphabetic oalpha " ++
    "otherdefaultignorablecodepoint odi othergraphemeextend ogrext otheridcontinue oidc " ++
    "otheridstart oids otherlowercase olower othermath omath otheruppercase oupper " ++
    "patternsyntax patsyn patternwhitespace patws prependedconcatenationmark pcm " ++
    "quotationmark qmark radical regionalindicator ri sentenceterminal sterm softdotted sd " ++
    "terminalpunctuation term unifiedideograph uideo uppercase upper variationselector vs " ++
    "whitespace wspace space xidcontinue xidc xidstart xids")

/-- General categories. -/
def categories : List String :=
  words ("c other cc control cntrl cf format cn unassigned co privateuse l letter lc " ++
    "casedletter ll lowercaseletter lm modifierletter lo otherletter lt titlecaseletter lu " ++
    "uppercaseletter m mark combiningmark mc spacingmark me enclosingmark mn nonspacingmark " ++
    "n number nd decimalnumber digit nl letternumber no othernumber p punctuation punct pc " ++
    "connectorpunctuation pd dashpunctuation pe closepunctuation pf finalpunctuation pi " ++
    "initialpunctuation po otherpunctuation ps openpunctuation s symbol sc currencysymbol " ++
    "sk modifiersymbol sm mathsymbol so othersymbol z separator zl lineseparator zp " ++
    "paragraphseparator zs spaceseparator any assigned ascii")

/-- Scripts. -/
def scripts : List String :=
  words ("adlm adlam aghb caucasianalbanian ahom arab arabic armi imperialaramaic armn armenian " ++
    "avst avestan bali balinese bamu bamum bass bassavah batk batak beng bengali bhks " ++
    "bhaiksuki bopo bopomofo brah brahmi brai braille bugi buginese buhd buhid cakm chakma " ++
    "cans canadianaboriginal cari carian cham cher cherokee chrs chorasmian copt coptic " ++
    "qaac cpmn cyprominoan cprt cypriot cyrl cyrillic deva devanagari diak divesakuru dogr " ++
    "dogra dsrt deseret dupl duployan egyp egyptianhieroglyphs elba elbasan elym elymaic " ++
    "ethi ethiopic geor georgian glag glagolitic gong gunjalagondi gonm masaramgondi goth " ++
    "gothic gran grantha grek greek gujr gujarati guru gurmukhi hang hangul hani han hano " ++
    "hanunoo hatr hatran hebr hebrew hira hiragana hluw anatolianhieroglyphs hmng " ++
    "pahawhhmong hmnp nyiakengpuachuehmong  hung oldhungarian ital olditalic java javanese " ++
    "kali kayahli kana katakana kawi khar kharoshthi khmr khmer khoj khojki kits " ++
    "khitansmallscript knda kannada kthi kaithi lana taitham laoo lao latn latin lepc " ++
    "lepcha limb limbu lina lineara linb linearb lisu lyci lycian lydi lydian mahj mahajani " ++
    "maka makasar mand mandaic mani manichaean marc marchen medf medefaidrin mend " ++
    "mendekikakui merc meroiticcursive mero meroitichieroglyphs mlym malayalam modi mong " ++
    "mongolian mroo mro mtei meeteimayek mult multani mymr myanmar nagm nagmundari nand " ++
    "nandinagari narb oldnortharabian nbat nabataean newa nkoo nko nshu nushu ogam ogham " ++
    "olck olchiki orkh oldturkic orya oriya osge osage osma osmanya ougr olduyghur palm " ++
    "palmyrene pauc paucinhau perm oldpermic phag phagspa phli inscriptionalpahlavi phlp " ++
    "psalterpahlavi phnx phoenician plrd miao prti inscriptionalparthian rjng rejang rohg " ++
    "hanifirohingya runr runic samr samaritan sarb oldsoutharabian saur saurashtra sgnw " ++
    "signwriting shaw shavian shrd sharada sidd siddham sind khudawadi sinh sinhala sogd " ++
    "sogdian sogo oldsogdian sora sorasompeng soyo soyombo sund sundanese sylo sylotinagri " ++
    "syrc syriac tagb tagbanwa takr takri tale taile talu newtailue taml tamil tang tangut " ++
    "tavt taiviet telu telugu tfng tifinagh tglg tagalog thaa thaana thai tibt tibetan tirh " ++
    "tirhuta tnsa tangsa toto ugar ugaritic vaii vai vith vithkuqi wara warangciti wcho " ++
    "wancho xpeo oldpersian xsux cuneiform yezi yezidi yiii yi zanb zanabazarsquare zinh " ++
    "inherited qaai zyyy common garay gara gurungkhema gukh kiratrai krai olonal onao " ++
    "sunuwar sunu todhri todr tulutigalari tutg")

/-- Names of values that no character has. -/
def vacantScripts : List String := words "unknown zzzz katakanaorhiragana hrkt"

/-- Names of categories of what is no character. -/
def vacantCategories : List String := words "cs surrogate"

/-- Versions of the standard. -/
def ages : List String :=
  words ("1.1 v11 2.0 v20 2.1 v21 3.0 v30 3.1 v31 3.2 v32 4.0 v40 4.1 v41 5.0 v50 5.1 v51 5.2 " ++
    "v52 6.0 v60 6.1 v61 6.2 v62 6.3 v63 7.0 v70 8.0 v80 9.0 v90 10.0 v100 11.0 v110 12.0 " ++
    "v120 12.1 v121 13.0 v130 14.0 v140 15.0 v150 15.1 v151 16.0 v160")

/-- Properties with values that can be asked for: their names and the names of the values. -/
def valued : List (List String × List String) := [
  (["gc", "generalcategory"], categories),
  (["sc", "script"], scripts),
  (["scx", "scriptextensions"], scripts),
  (["age"], ages),
  (["gcb", "graphemeclusterbreak"],
    words ("cr control cn extend ex l lf lv lvt prepend pp regionalindicator ri spacingmark " ++
    "sm t v zwj")),
  (["sb", "sentencebreak"],
    words ("aterm at cr close cl extend ex format fo lf lower lo numeric nu oletter le " ++
    "scontinue sc sterm st sep se sp upper up")),
  (["wb", "wordbreak"],
    words ("aletter le cr doublequote dq extend extendnumlet ex format fo hebrewletter hl " ++
    "katakana ka lf midletter ml midnum mn midnumlet mb newline nl numeric nu regionalindicator ri " ++
    "singlequote sq wsegspace zwj"))]

/-- Properties whose values cannot be asked for. -/
def unvalued : List String :=
  words ("bc bidiclass blk block bidim bidimirrored bmg bidimirroringglyph bpb " ++
    "bidipairedbracket bpt bidipairedbrackettype ccc canonicalcombiningclass cf casefolding ce " ++
    "compositionexclusion compex fullcompositionexclusion cwkcf changeswhennfkccasefolded " ++
    "cjkaccountingnumeric kaccountingnumeric cjkcompatibilityvariant kcompatibilityvariant " ++
    "cjkiicore kiicore cjkirggsource kirggsource cjkirghsource kirghsource cjkirgjsource " ++
    "kirgjsource cjkirgkpsource kirgkpsource cjkirgksource kirgksource cjkirgmsource " ++
    "kirgmsource cjkirgssource kirgssource cjkirgtsource kirgtsource cjkirguksource " ++
    "kirguksource cjkirgusource kirgusource cjkirgvsource kirgvsource cjkothernumeric " ++
    "kothernumeric cjkprimarynumeric kprimarynumeric cjkrsunicode krsunicode " ++
    "unicoderadicalstroke urs dm decompositionmapping dt decompositiontype ea " ++
    "eastasianwidth equideo equivalentunifiedideograph fcnfkc fcnfkcclosure hst " ++
    "hangulsyllabletype inpc indicpositionalcategory insc indicsyllabiccategory isc " ++
    "ocomment jsn jamoshortname jg joininggroup jt joiningtype kehcat kehnomirror " ++
    "kehnorotate lb linebreak lc lowercasemapping na name na1 unicode1name namealias nfcqc " ++
    "nfcquickcheck nfdqc nfdquickcheck nfkccf nfkccasefold nfkcqc nfkcquickcheck nfkcscf " ++
    "nfkcsimplecasefold nfkdqc nfkdquickcheck nt numerictype nv numericvalue scf " ++
    "simplecasefolding sfc slc simplelowercasemapping stc simpletitlecasemapping suc " ++
    "simpleuppercasemapping tc titlecasemapping uc uppercasemapping vo verticalorientation " ++
    "xonfc expandsonnfc xonfd expandsonnfd xonfkc expandsonnfkc xonfkd expandsonnfkd")

/-- How a look-up ends. -/
inductive Finding where
  | found
  | noProperty
  | noValue
  deriving DecidableEq, Repr

/-- Whether a name alone names a class. -/
def lookUpName (name : String) : Finding :=
  let n := normalize name
  if binary.contains n || categories.contains n || scripts.contains n then .found
  else if vacantScripts.contains n || vacantCategories.contains n then .noValue
  else .noProperty

/-- Whether a property with a value names a class. -/
def lookUpValue (property value : String) : Finding :=
  let p := normalize property
  match valued.find? (·.1.contains p) with
  | some (_, values) => if values.contains (normalize value) then .found else .noValue
  | none => if binary.contains p || unvalued.contains p then .noValue else .noProperty

end SchemaTree.Pattern.Property
