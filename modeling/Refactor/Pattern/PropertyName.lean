/-!
# Names of properties

The names by which a pattern asks for characters with a property, by Unicode 16.0: binary
properties, general categories and scripts, in small letters and without blanks, hyphens and
underscores. Beside the names stand the ASCII characters that have the property, as inclusive
ranges; patterns are looked for in ASCII texts only.
-/

namespace Refactor.Pattern

/-- Binary properties, with all names of those that have the same ASCII characters. -/
def binaryProperties : List (List (Nat × Nat) × String) :=
  [([(0x2B, 0x2B), (0x3C, 0x3E), (0x5E, 0x5E), (0x7C, 0x7C), (0x7E, 0x7E)],
    "math"),
   ([(0x20, 0x7E)],
    "graphemebase grbase"),
   ([(0x21, 0x21), (0x2C, 0x2C), (0x2E, 0x2E), (0x3A, 0x3B), (0x3F, 0x3F)],
    "term terminalpunctuation"),
   ([(0x21, 0x21), (0x2E, 0x2E), (0x3F, 0x3F)],
    "sentenceterminal sterm"),
   ([(0x21, 0x2F), (0x3A, 0x40), (0x5B, 0x5E), (0x60, 0x60), (0x7B, 0x7E)],
    "patsyn patternsyntax"),
   ([(0x22, 0x22), (0x27, 0x27)],
    "qmark quotationmark"),
   ([(0x27, 0x27), (0x2E, 0x2E), (0x3A, 0x3A), (0x5E, 0x5E), (0x60, 0x60)],
    "caseignorable ci"),
   ([(0x28, 0x29), (0x3C, 0x3C), (0x3E, 0x3E), (0x5B, 0x5B), (0x5D, 0x5D), (0x7B, 0x7B),
     (0x7D, 0x7D)],
    "bidim bidimirrored"),
   ([(0x2D, 0x2D)],
    "dash hyphen"),
   ([(0x5E, 0x5E), (0x60, 0x60)],
    "dia diacritic"),
   ([(0x69, 0x6A)],
    "sd softdotted"),
   ([(0x23, 0x23), (0x2A, 0x2A), (0x30, 0x39)],
    "ecomp emoji emojicomponent"),
   ([(0x30, 0x39), (0x41, 0x46), (0x61, 0x66)],
    "ahex asciihexdigit hex hexdigit"),
   ([(0x30, 0x39), (0x41, 0x5A), (0x5F, 0x5F), (0x61, 0x7A)],
    "idc idcontinue xidc xidcontinue"),
   ([(0x9, 0xD), (0x20, 0x20)],
    "patternwhitespace patws space whitespace wspace"),
   ([(0x41, 0x5A)],
    "changeswhencasefolded changeswhenlowercased cwcf cwl upper uppercase"),
   ([(0x61, 0x7A)],
    "changeswhentitlecased changeswhenuppercased cwt cwu lower lowercase"),
   ([(0x41, 0x5A), (0x61, 0x7A)],
    "alpha alphabetic cased changeswhencasemapped cwcm ids idstart xids xidstart"),
   ([],
    "bidic bidicontrol defaultignorablecodepoint dep deprecated di ebase emod " ++
    "emojimodifier emojimodifierbase emojipresentation epres ext extendedpictographic " ++
    "extender extpict graphemeextend graphemelink grext grlink idcompatmathcontinue " ++
    "idcompatmathstart ideo ideographic idsb idsbinaryoperator idst idstrinaryoperator " ++
    "idsu idsunaryoperator joinc joincontrol loe logicalorderexception mcm " ++
    "modifiercombiningmark nchar noncharactercodepoint pcm prependedconcatenationmark " ++
    "radical regionalindicator ri uideo unifiedideograph variationselector vs")]

/-- General categories, and the sets of all, of all assigned and of all ASCII code points. -/
def generalCategories : List (List (Nat × Nat) × String) :=
  [([(0x21, 0x23), (0x25, 0x27), (0x2A, 0x2A), (0x2C, 0x2C), (0x2E, 0x2F), (0x3A, 0x3B),
     (0x3F, 0x40), (0x5C, 0x5C)],
    "otherpunctuation po"),
   ([(0x24, 0x24), (0x2B, 0x2B), (0x3C, 0x3E), (0x5E, 0x5E), (0x60, 0x60), (0x7C, 0x7C),
     (0x7E, 0x7E)],
    "s symbol"),
   ([(0x24, 0x24)],
    "currencysymbol sc"),
   ([(0x28, 0x28), (0x5B, 0x5B), (0x7B, 0x7B)],
    "openpunctuation ps"),
   ([(0x29, 0x29), (0x5D, 0x5D), (0x7D, 0x7D)],
    "closepunctuation pe"),
   ([(0x2B, 0x2B), (0x3C, 0x3E), (0x7C, 0x7C), (0x7E, 0x7E)],
    "mathsymbol sm"),
   ([(0x2D, 0x2D)],
    "dashpunctuation pd"),
   ([(0x41, 0x5A)],
    "lu uppercaseletter"),
   ([(0x5E, 0x5E), (0x60, 0x60)],
    "modifiersymbol sk"),
   ([(0x5F, 0x5F)],
    "connectorpunctuation pc"),
   ([(0x61, 0x7A)],
    "ll lowercaseletter"),
   ([(0x0, 0x7F)],
    "any ascii assigned"),
   ([(0x21, 0x23), (0x25, 0x2A), (0x2C, 0x2F), (0x3A, 0x3B), (0x3F, 0x40), (0x5B, 0x5D),
     (0x5F, 0x5F), (0x7B, 0x7B), (0x7D, 0x7D)],
    "p punct punctuation"),
   ([(0x20, 0x20)],
    "separator spaceseparator z zs"),
   ([(0x41, 0x5A), (0x61, 0x7A)],
    "casedletter l lc letter"),
   ([(0x0, 0x1F), (0x7F, 0x7F)],
    "c cc cntrl control other"),
   ([(0x30, 0x39)],
    "decimalnumber digit n nd number"),
   ([],
    "cf cn co combiningmark cs enclosingmark finalpunctuation format initialpunctuation " ++
    "letternumber lineseparator lm lo lt m mark mc me mn modifierletter nl no " ++
    "nonspacingmark otherletter othernumber othersymbol paragraphseparator pf pi " ++
    "privateuse so spacingmark surrogate titlecaseletter unassigned zl zp")]

/-- Scripts. -/
def scripts : List (List (Nat × Nat) × String) :=
  [([(0x0, 0x40), (0x5B, 0x60), (0x7B, 0x7F)],
    "common zyyy"),
   ([(0x41, 0x5A), (0x61, 0x7A)],
    "latin latn"),
   ([],
    "adlam adlm aghb ahom anatolianhieroglyphs arab arabic armenian armi armn avestan " ++
    "avst bali balinese bamu bamum bass bassavah batak batk beng bengali bhaiksuki bhks " ++
    "bopo bopomofo brah brahmi brai braille bugi buginese buhd buhid cakm " ++
    "canadianaboriginal cans cari carian caucasianalbanian chakma cham cher cherokee " ++
    "chorasmian chrs copt coptic cpmn cprt cuneiform cypriot cyprominoan cyrillic cyrl " ++
    "deseret deva devanagari diak divesakuru dogr dogra dsrt dupl duployan egyp " ++
    "egyptianhieroglyphs elba elbasan elym elymaic ethi ethiopic gara garay geor " ++
    "georgian glag glagolitic gong gonm goth gothic gran grantha greek grek gujarati " ++
    "gujr gukh gunjalagondi gurmukhi guru gurungkhema han hang hangul hani " ++
    "hanifirohingya hano hanunoo hatr hatran hebr hebrew hira hiragana hluw hmng hmnp " ++
    "hung imperialaramaic inherited inscriptionalpahlavi inscriptionalparthian ital java " ++
    "javanese kaithi kali kana kannada katakana kawi kayahli khar kharoshthi " ++
    "khitansmallscript khmer khmr khoj khojki khudawadi kiratrai kits knda krai kthi " ++
    "lana lao laoo lepc lepcha limb limbu lina linb lineara linearb lisu lyci lycian " ++
    "lydi lydian mahajani mahj maka makasar malayalam mand mandaic mani manichaean marc " ++
    "marchen masaramgondi medefaidrin medf meeteimayek mend mendekikakui merc mero " ++
    "meroiticcursive meroitichieroglyphs miao mlym modi mong mongolian mro mroo mtei " ++
    "mult multani myanmar mymr nabataean nagm nagmundari nand nandinagari narb nbat newa " ++
    "newtailue nko nkoo nshu nushu nyiakengpuachuehmong ogam ogham olchiki olck " ++
    "oldhungarian olditalic oldnortharabian oldpermic oldpersian oldsogdian " ++
    "oldsoutharabian oldturkic olduyghur olonal onao oriya orkh orya osage osge osma " ++
    "osmanya ougr pahawhhmong palm palmyrene pauc paucinhau perm phag phagspa phli phlp " ++
    "phnx phoenician plrd prti psalterpahlavi qaac qaai rejang rjng rohg runic runr " ++
    "samaritan samr sarb saur saurashtra sgnw sharada shavian shaw shrd sidd siddham " ++
    "signwriting sind sinh sinhala sogd sogdian sogo sora sorasompeng soyo soyombo sund " ++
    "sundanese sunu sunuwar sylo sylotinagri syrc syriac tagalog tagb tagbanwa taile " ++
    "taitham taiviet takr takri tale talu tamil taml tang tangsa tangut tavt telu telugu " ++
    "tfng tglg thaa thaana thai tibetan tibt tifinagh tirh tirhuta tnsa todhri todr toto " ++
    "tulutigalari tutg ugar ugaritic unknown vai vaii vith vithkuqi wancho wara " ++
    "warangciti wcho xpeo xsux yezi yezidi yi yiii zanabazarsquare zanb zinh zzzz")]

end Refactor.Pattern
