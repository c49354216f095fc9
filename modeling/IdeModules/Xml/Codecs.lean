import IdeModules.Error

/-!
# Known character sets

The names of character sets beside the ones that every reader of documents has, and the
characters of their bytes.  A set is a chart of 256 characters, in the order of the bytes; a
byte without a character has the sign of replacement in its place.
-/

namespace IdeModules.Xml

/-- What is known about the characters of a set. -/
inductive Codec where
  /-- The bytes of the lower half are ASCII, and those of the upper half make these characters. -/
  | upperHalf (parts : List String)
  /-- All bytes make these characters. -/
  | whole (parts : List String)
  /-- The bytes do not make characters one by one, and asking for them fails. -/
  | failing (failure : Error)

/-- Sets with the same characters, by their own names and by other ones. -/
structure NamedCodec where
  names : List String
  aliases : List String
  codec : Codec

def charsFrom (first count : Nat) : String :=
  String.ofList ((List.range' first count).map Char.ofNat)

def missingChar : Char := '\ufffd'

/-- Bytes without characters. -/
def missing (count : Nat) : String :=
  String.ofList (List.replicate count missingChar)

/-- The standard sets: ASCII, and those with one more group of languages in the upper half. -/
def standardSets : List NamedCodec := [
  ⟨["ascii", "iso2022_jp", "iso2022_jp_1", "iso2022_jp_2", "iso2022_jp_2004", "iso2022_jp_3",
      "iso2022_jp_ext", "utf_8", "utf_8_sig"],
    ["646", "ansi_x3.4_1968", "ansi_x3.4_1986", "ansi_x3_4_1968", "cp367", "csascii", "ibm367",
      "iso646_us", "iso_646.irv_1991", "iso_ir_6", "us", "us_ascii", "csiso2022jp", "iso2022jp",
      "iso_2022_jp", "iso2022jp_1", "iso_2022_jp_1", "iso2022jp_2", "iso_2022_jp_2",
      "iso2022jp_2004", "iso_2022_jp_2004", "iso2022jp_3", "iso_2022_jp_3", "iso2022jp_ext",
      "iso_2022_jp_ext", "cp65001", "u8", "utf", "utf8", "utf8_ucs2", "utf8_ucs4"],
    .upperHalf [missing 128]⟩,
  ⟨["charmap", "iso8859_1", "latin_1", "raw_unicode_escape", "unicode_escape"],
    ["8859", "cp819", "csisolatin1", "ibm819", "iso8859", "iso8859_1", "iso_8859_1",
      "iso_8859_1_1987", "iso_ir_100", "l1", "latin", "latin1"],
    .upperHalf [charsFrom 0x80 33, "¡¢£¤¥¦§¨©ª«¬\xad®¯°±²³´µ¶·¸¹º»¼½¾¿À",
      "ÁÂÃÄÅÆÇÈÉÊËÌÍÎÏÐÑÒÓÔÕÖ×ØÙÚÛÜÝÞßà", "áâãäåæçèéêëìíîïðñòóôõö÷øùúûüýþÿ"]⟩,
  ⟨["iso8859_2"],
    ["csisolatin2", "iso_8859_2", "iso_8859_2_1987", "iso_ir_101", "l2", "latin2"],
    .upperHalf [charsFrom 0x80 33, "Ą˘Ł¤ĽŚ§¨ŠŞŤŹ\xadŽŻ°ą˛ł´ľśˇ¸šşťź˝žżŔ",
      "ÁÂĂÄĹĆÇČÉĘËĚÍÎĎĐŃŇÓÔŐÖ×ŘŮÚŰÜÝŢßŕ", "áâăäĺćçčéęëěíîďđńňóôőö÷řůúűüýţ˙"]⟩,
  ⟨["iso8859_3"],
    ["csisolatin3", "iso_8859_3", "iso_8859_3_1988", "iso_ir_109", "l3", "latin3"],
    .upperHalf [charsFrom 0x80 33, "Ħ˘£¤�Ĥ§¨İŞĞĴ\xad�Ż°ħ²³´µĥ·¸ışğĵ½�żÀ",
      "ÁÂ�ÄĊĈÇÈÉÊËÌÍÎÏ�ÑÒÓÔĠÖ×ĜÙÚÛÜŬŜßà", "áâ�äċĉçèéêëìíîï�ñòóôġö÷ĝùúûüŭŝ˙"]⟩,
  ⟨["iso8859_4"],
    ["csisolatin4", "iso_8859_4", "iso_8859_4_1988", "iso_ir_110", "l4", "latin4"],
    .upperHalf [charsFrom 0x80 33, "ĄĸŖ¤ĨĻ§¨ŠĒĢŦ\xadŽ¯°ą˛ŗ´ĩļˇ¸šēģŧŊžŋĀ",
      "ÁÂÃÄÅÆĮČÉĘËĖÍÎĪĐŅŌĶÔÕÖ×ØŲÚÛÜŨŪßā", "áâãäåæįčéęëėíîīđņōķôõö÷øųúûüũū˙"]⟩,
  ⟨["iso8859_5"],
    ["csisolatincyrillic", "cyrillic", "iso_8859_5", "iso_8859_5_1988", "iso_ir_144"],
    .upperHalf [charsFrom 0x80 33, "ЁЂЃЄЅІЇЈЉЊЋЌ\xadЎЏАБВГДЕЖЗИЙКЛМНОПР",
      "СТУФХЦЧШЩЪЫЬЭЮЯабвгдежзийклмнопр", "стуфхцчшщъыьэюя№ёђѓєѕіїјљњћќ§ўџ"]⟩,
  ⟨["iso8859_6"],
    ["arabic", "asmo_708", "csisolatinarabic", "ecma_114", "iso_8859_6", "iso_8859_6_1987",
      "iso_ir_127"],
    .upperHalf [charsFrom 0x80 33, "���¤", missing 7, "،\xad", missing 13, "\u061b���\u061f�",
      charsFrom 0x621 26, "�����", charsFrom 0x640 19, missing 13]⟩,
  ⟨["iso8859_7"],
    ["csisolatingreek", "ecma_118", "elot_928", "greek", "greek8", "iso_8859_7",
      "iso_8859_7_1987", "iso_ir_126"],
    .upperHalf [charsFrom 0x80 33, "‘’£€₯¦§¨©ͺ«¬\xad�―°±²³΄΅Ά·ΈΉΊ»Ό½ΎΏΐ",
      "ΑΒΓΔΕΖΗΘΙΚΛΜΝΞΟΠΡ�ΣΤΥΦΧΨΩΪΫάέήίΰ", "αβγδεζηθικλμνξοπρςστυφχψωϊϋόύώ�"]⟩,
  ⟨["iso8859_8"],
    ["csisolatinhebrew", "hebrew", "iso_8859_8", "iso_8859_8_1988", "iso_ir_138"],
    .upperHalf [charsFrom 0x80 33, "�¢£¤¥¦§¨©×«¬\xad®¯°±²³´µ¶·¸¹÷»¼½¾", missing 32, "‗",
      charsFrom 0x5d0 27, "��\u200e\u200f�"]⟩,
  ⟨["iso8859_9"],
    ["csisolatin5", "iso_8859_9", "iso_8859_9_1989", "iso_ir_148", "l5", "latin5"],
    .upperHalf [charsFrom 0x80 33, "¡¢£¤¥¦§¨©ª«¬\xad®¯°±²³´µ¶·¸¹º»¼½¾¿À",
      "ÁÂÃÄÅÆÇÈÉÊËÌÍÎÏĞÑÒÓÔÕÖ×ØÙÚÛÜİŞßà", "áâãäåæçèéêëìíîïğñòóôõö÷øùúûüışÿ"]⟩,
  ⟨["iso8859_10"],
    ["csisolatin6", "iso_8859_10", "iso_8859_10_1992", "iso_ir_157", "l6", "latin6"],
    .upperHalf [charsFrom 0x80 33, "ĄĒĢĪĨĶ§ĻĐŠŦŽ\xadŪŊ°ąēģīĩķ·ļđšŧž―ūŋĀ",
      "ÁÂÃÄÅÆĮČÉĘËĖÍÎÏÐŅŌÓÔÕÖŨØŲÚÛÜÝÞßā", "áâãäåæįčéęëėíîïðņōóôõöũøųúûüýþĸ"]⟩,
  ⟨["iso8859_11"],
    ["iso_8859_11", "iso_8859_11_2001", "thai"],
    .upperHalf [charsFrom 0x80 33, "กขฃคฅฆงจฉชซฌญฎฏฐฑฒณดตถทธนบปผฝพฟภ", "มยรฤลฦวศษสหฬอฮฯะ",
      charsFrom 0xe31 10, "����฿เแโใไๅๆ", charsFrom 0xe47 8, "๏๐๑๒๓๔๕๖๗๘๙๚๛����"]⟩,
  ⟨["iso8859_13"],
    ["iso_8859_13", "l7", "latin7"],
    .upperHalf [charsFrom 0x80 33, "”¢£¤„¦§Ø©Ŗ«¬\xad®Æ°±²³“µ¶·ø¹ŗ»¼½¾æĄ",
      "ĮĀĆÄÅĘĒČÉŹĖĢĶĪĻŠŃŅÓŌÕÖ×ŲŁŚŪÜŻŽßą", "įāćäåęēčéźėģķīļšńņóōõö÷ųłśūüżž’"]⟩,
  ⟨["iso8859_14"],
    ["iso_8859_14", "iso_8859_14_1998", "iso_celtic", "iso_ir_199", "l8", "latin8"],
    .upperHalf [charsFrom 0x80 33, "Ḃḃ£ĊċḊ§Ẁ©ẂḋỲ\xad®ŸḞḟĠġṀṁ¶ṖẁṗẃṠỳẄẅṡÀ",
      "ÁÂÃÄÅÆÇÈÉÊËÌÍÎÏŴÑÒÓÔÕÖṪØÙÚÛÜÝŶßà", "áâãäåæçèéêëìíîïŵñòóôõöṫøùúûüýŷÿ"]⟩,
  ⟨["iso8859_15"],
    ["iso_8859_15", "l9", "latin9"],
    .upperHalf [charsFrom 0x80 33, "¡¢£€¥Š§š©ª«¬\xad®¯°±²³Žµ¶·ž¹º»ŒœŸ¿À",
      "ÁÂÃÄÅÆÇÈÉÊËÌÍÎÏÐÑÒÓÔÕÖ×ØÙÚÛÜÝÞßà", "áâãäåæçèéêëìíîïðñòóôõö÷øùúûüýþÿ"]⟩,
  ⟨["iso8859_16"],
    ["iso_8859_16", "iso_8859_16_2001", "iso_ir_226", "l10", "latin10"],
    .upperHalf [charsFrom 0x80 33, "ĄąŁ€„Š§š©Ș«Ź\xadźŻ°±ČłŽ”¶·žčș»ŒœŸżÀ",
      "ÁÂĂÄĆÆÇÈÉÊËÌÍÎÏĐŃÒÓÔŐÖŚŰÙÚÛÜĘȚßà", "áâăäćæçèéêëìíîïđńòóôőöśűùúûüęțÿ"]⟩,
  ⟨["tis_620"],
    ["iso_ir_166", "tis620", "tis_620_0", "tis_620_2529_0", "tis_620_2529_1"],
    .upperHalf [charsFrom 0x80 32, "�กขฃคฅฆงจฉชซฌญฎฏฐฑฒณดตถทธนบปผฝพฟ", "ภมยรฤลฦวศษสหฬอฮฯะ",
      charsFrom 0xe31 10, "����฿เแโใไๅๆ", charsFrom 0xe47 8, "๏๐๑๒๓๔๕๖๗๘๙๚๛����"]⟩]

/-- The sets of Windows, and the ones made after them. -/
def windowsSets : List NamedCodec := [
  ⟨["cp1250"],
    ["1250", "windows_1250"],
    .upperHalf ["€�‚�„…†‡�‰Š‹ŚŤŽŹ�‘’“”•–—�™š›śťžź", "\xa0ˇ˘Ł¤Ą¦§¨©Ş«¬\xad®Ż°±˛ł´µ¶·¸ąş»Ľ˝ľż",
      "ŔÁÂĂÄĹĆÇČÉĘËĚÍÎĎĐŃŇÓÔŐÖ×ŘŮÚŰÜÝŢß", "ŕáâăäĺćçčéęëěíîďđńňóôőö÷řůúűüýţ˙"]⟩,
  ⟨["cp1251"],
    ["1251", "windows_1251"],
    .upperHalf ["ЂЃ‚ѓ„…†‡€‰Љ‹ЊЌЋЏђ‘’“”•–—�™љ›њќћџ", "\xa0ЎўЈ¤Ґ¦§Ё©Є«¬\xad®Ї°±Ііґµ¶·ё№є»јЅѕї",
      "АБВГДЕЖЗИЙКЛМНОПРСТУФХЦЧШЩЪЫЬЭЮЯ", "абвгдежзийклмнопрстуфхцчшщъыьэюя"]⟩,
  ⟨["cp1252"],
    ["1252", "windows_1252"],
    .upperHalf ["€�‚ƒ„…†‡ˆ‰Š‹Œ�Ž��‘’“”•–—˜™š›œ�žŸ", "\xa0¡¢£¤¥¦§¨©ª«¬\xad®¯°±²³´µ¶·¸¹º»¼½¾¿",
      "ÀÁÂÃÄÅÆÇÈÉÊËÌÍÎÏÐÑÒÓÔÕÖ×ØÙÚÛÜÝÞß", "àáâãäåæçèéêëìíîïðñòóôõö÷øùúûüýþÿ"]⟩,
  ⟨["cp1253"],
    ["1253", "windows_1253"],
    .upperHalf ["€�‚ƒ„…†‡�‰�‹�����‘’“”•–—�™�›����", "\xa0΅Ά£¤¥¦§¨©�«¬\xad®―°±²³΄µ¶·ΈΉΊ»Ό½ΎΏ",
      "ΐΑΒΓΔΕΖΗΘΙΚΛΜΝΞΟΠΡ�ΣΤΥΦΧΨΩΪΫάέήί", "ΰαβγδεζηθικλμνξοπρςστυφχψωϊϋόύώ�"]⟩,
  ⟨["cp1254"],
    ["1254", "windows_1254"],
    .upperHalf ["€�‚ƒ„…†‡ˆ‰Š‹Œ����‘’“”•–—˜™š›œ��Ÿ", "\xa0¡¢£¤¥¦§¨©ª«¬\xad®¯°±²³´µ¶·¸¹º»¼½¾¿",
      "ÀÁÂÃÄÅÆÇÈÉÊËÌÍÎÏĞÑÒÓÔÕÖ×ØÙÚÛÜİŞß", "àáâãäåæçèéêëìíîïğñòóôõö÷øùúûüışÿ"]⟩,
  ⟨["cp1255"],
    ["1255", "windows_1255"],
    .upperHalf ["€�‚ƒ„…†‡ˆ‰�‹�����‘’“”•–—˜™�›����", "\xa0¡¢£₪¥¦§¨©×«¬\xad®¯°±²³´µ¶·¸¹÷»¼½¾¿",
      charsFrom 0x5b0 10, "�", charsFrom 0x5bb 9, charsFrom 0x5f0 5, missing 7,
      charsFrom 0x5d0 27, "��\u200e\u200f�"]⟩,
  ⟨["cp1256"],
    ["1256", "windows_1256"],
    .upperHalf ["€\u067e‚ƒ„…†‡ˆ‰\u0679‹Œ\u0686\u0698\u0688\u06af‘’“”•–—\u06a9™\u0691›œ\u200c",
      "\u200d\u06ba", "\xa0،¢£¤¥¦§¨©\u06be«¬\xad®¯°±²³´µ¶·¸¹\u061b»¼½¾\u061f", "\u06c1",
      charsFrom 0x621 22, "×", charsFrom 0x637 4, charsFrom 0x640 4, "à\u0644â",
      charsFrom 0x645 4, "çèéêë\u0649\u064aîï", charsFrom 0x64b 4,
      "ô\u064f\u0650÷\u0651ù\u0652ûü\u200e\u200f\u06d2"]⟩,
  ⟨["cp1257"],
    ["1257", "windows_1257"],
    .upperHalf ["€�‚�„…†‡�‰�‹�¨ˇ¸�‘’“”•–—�™�›�¯˛�", "\xa0�¢£¤�¦§Ø©Ŗ«¬\xad®Æ°±²³´µ¶·ø¹ŗ»¼½¾æ",
      "ĄĮĀĆÄÅĘĒČÉŹĖĢĶĪĻŠŃŅÓŌÕÖ×ŲŁŚŪÜŻŽß", "ąįāćäåęēčéźėģķīļšńņóōõö÷ųłśūüżž˙"]⟩,
  ⟨["cp1258"],
    ["1258", "windows_1258"],
    .upperHalf ["€�‚ƒ„…†‡ˆ‰�‹Œ����‘’“”•–—˜™�›œ��Ÿ", "\xa0¡¢£¤¥¦§¨©ª«¬\xad®¯°±²³´µ¶·¸¹º»¼½¾¿",
      "ÀÁÂĂÄÅÆÇÈÉÊË\u0300ÍÎÏĐÑ\u0309ÓÔƠÖ×ØÙÚÛÜƯ\u0303ß",
      "àáâăäåæçèéêë\u0301íîïđñ\u0323óôơö÷øùúûüư₫ÿ"]⟩,
  ⟨["cp874"],
    [],
    .upperHalf ["€����…", missing 11, "‘’“”•–—", missing 8, "\xa0กขฃคฅฆงจฉชซฌญฎฏฐฑฒณดตถทธนบปผฝพฟ",
      "ภมยรฤลฦวศษสหฬอฮฯะ", charsFrom 0xe31 10, "����฿เแโใไๅๆ", charsFrom 0xe47 8,
      "๏๐๑๒๓๔๕๖๗๘๙๚๛����"]⟩,
  ⟨["kz1048"],
    ["kz_1048", "rk1048", "strk1048_2002"],
    .upperHalf ["ЂЃ‚ѓ„…†‡€‰Љ‹ЊҚҺЏђ‘’“”•–—�™љ›њқһџ", "\xa0ҰұӘ¤Ө¦§Ё©Ғ«¬\xad®Ү°±Ііөµ¶·ё№ғ»әҢңү",
      "АБВГДЕЖЗИЙКЛМНОПРСТУФХЦЧШЩЪЫЬЭЮЯ", "абвгдежзийклмнопрстуфхцчшщъыьэюя"]⟩,
  ⟨["ptcp154"],
    ["cp154", "csptcp154", "cyrillic_asian", "pt154"],
    .upperHalf ["ҖҒӮғ„…ҶҮҲүҠӢҢҚҺҸҗ‘’“”•–—ҳҷҡӣңқһҹ", "\xa0ЎўЈӨҘҰ§Ё©Ә«¬ӯ®Ҝ°ұІіҙө¶·ё№ә»јҪҫҝ",
      "АБВГДЕЖЗИЙКЛМНОПРСТУФХЦЧШЩЪЫЬЭЮЯ", "абвгдежзийклмнопрстуфхцчшщъыьэюя"]⟩,
  ⟨["palmos"],
    [],
    .upperHalf ["€\x81‚ƒ„…†‡ˆ‰Š‹Œ♦♣♥♠‘’“”•–—˜™š\x9bœ\x9d\x9eŸ",
      "\xa0¡¢£¤¥¦§¨©ª«¬\xad®¯°±²³´µ¶·¸¹º»¼½¾¿", "ÀÁÂÃÄÅÆÇÈÉÊËÌÍÎÏÐÑÒÓÔÕÖ×ØÙÚÛÜÝÞß",
      "àáâãäåæçèéêëìíîïðñòóôõö÷øùúûüýþÿ"]⟩]

/-- Sets for Cyrillic in the order of the Latin letters. -/
def cyrillicSets : List NamedCodec := [
  ⟨["koi8_r"],
    ["cskoi8r"],
    .upperHalf ["─│┌┐└┘├┤┬┴┼▀▄█▌▐░▒▓⌠■∙√≈≤≥\xa0⌡°²·÷", "═║╒ё╓╔╕╖╗╘╙╚╛╜╝╞╟╠╡Ё╢╣╤╥╦╧╨╩╪╫╬©",
      "юабцдефгхийклмнопярстужвьызшэщчъ", "ЮАБЦДЕФГХИЙКЛМНОПЯРСТУЖВЬЫЗШЭЩЧЪ"]⟩,
  ⟨["koi8_u"],
    [],
    .upperHalf ["─│┌┐└┘├┤┬┴┼▀▄█▌▐░▒▓⌠■∙√≈≤≥\xa0⌡°²·÷", "═║╒ёє╔ії╗╘╙╚╛ґ╝╞╟╠╡ЁЄ╣ІЇ╦╧╨╩╪Ґ╬©",
      "юабцдефгхийклмнопярстужвьызшэщчъ", "ЮАБЦДЕФГХИЙКЛМНОПЯРСТУЖВЬЫЗШЭЩЧЪ"]⟩,
  ⟨["koi8_t"],
    [],
    .upperHalf ["қғ‚Ғ„…†‡�‰ҳ‹ҲҷҶ�Қ‘’“”•–—�™�›����", "�ӯӮё¤ӣ¦§���«¬\xad®�°±²Ё�Ӣ¶·�№�»���©",
      "юабцдефгхийклмнопярстужвьызшэщчъ", "ЮАБЦДЕФГХИЙКЛМНОПЯРСТУЖВЬЫЗШЭЩЧЪ"]⟩]

/-- The sets of consoles, with lines and blocks for frames. -/
def consoleSets : List NamedCodec := [
  ⟨["cp437"],
    ["437", "cspc8codepage437", "ibm437"],
    .upperHalf ["ÇüéâäàåçêëèïîìÄÅÉæÆôöòûùÿÖÜ¢£¥₧ƒ", "áíóúñÑªº¿⌐¬½¼¡«»░▒▓│┤╡╢╖╕╣║╗╝╜╛┐",
      "└┴┬├─┼╞╟╚╔╩╦╠═╬╧╨╤╥╙╘╒╓╫╪┘┌█▄▌▐▀", "αßΓπΣσµτΦΘΩδ∞φε∩≡±≥≤⌠⌡÷≈°∙·√ⁿ²■\xa0"]⟩,
  ⟨["cp720"],
    [],
    .upperHalf ["\x80\x81éâ\x84à\x86çêëèïî", charsFrom 0x8d 4, "\u0651\u0652ô¤\u0640ûù",
      charsFrom 0x621 4, "£", charsFrom 0x625 17, "«»░▒▓│┤╡╢╖╕╣║╗╝╜╛┐└┴┬├─┼╞╟╚╔╩╦╠═",
      "╬╧╨╤╥╙╘╒╓╫╪┘┌█▄▌▐▀", charsFrom 0x636 5, "\u0641µ", charsFrom 0x642 9, "≡",
      charsFrom 0x64b 6, "≈°∙·√ⁿ²■\xa0"]⟩,
  ⟨["cp737"],
    [],
    .upperHalf ["ΑΒΓΔΕΖΗΘΙΚΛΜΝΞΟΠΡΣΤΥΦΧΨΩαβγδεζηθ", "ικλμνξοπρσςτυφχψ░▒▓│┤╡╢╖╕╣║╗╝╜╛┐",
      "└┴┬├─┼╞╟╚╔╩╦╠═╬╧╨╤╥╙╘╒╓╫╪┘┌█▄▌▐▀", "ωάέήϊίόύϋώΆΈΉΊΌΎΏ±≥≤ΪΫ÷≈°∙·√ⁿ²■\xa0"]⟩,
  ⟨["cp775"],
    ["775", "cspc775baltic", "ibm775"],
    .upperHalf ["ĆüéāäģåćłēŖŗīŹÄÅÉæÆōöĢ¢ŚśÖÜø£Ø×¤", "ĀĪóŻżź”¦©®¬½¼Ł«»░▒▓│┤ĄČĘĖ╣║╗╝ĮŠ┐",
      "└┴┬├─┼ŲŪ╚╔╩╦╠═╬Žąčęėįšųūž┘┌█▄▌▐▀", "ÓßŌŃõÕµńĶķĻļņĒŅ’\xad±“¾¶§÷„°∙·¹³²■\xa0"]⟩,
  ⟨["cp850"],
    ["850", "cspc850multilingual", "ibm850"],
    .upperHalf ["ÇüéâäàåçêëèïîìÄÅÉæÆôöòûùÿÖÜø£Ø×ƒ", "áíóúñÑªº¿®¬½¼¡«»░▒▓│┤ÁÂÀ©╣║╗╝¢¥┐",
      "└┴┬├─┼ãÃ╚╔╩╦╠═╬¤ðÐÊËÈıÍÎÏ┘┌█▄¦Ì▀", "ÓßÔÒõÕµþÞÚÛÙýÝ¯´\xad±‗¾¶§÷¸°¨·¹³²■\xa0"]⟩,
  ⟨["cp852"],
    ["852", "cspcp852", "ibm852"],
    .upperHalf ["ÇüéâäůćçłëŐőîŹÄĆÉĹĺôöĽľŚśÖÜŤťŁ×č", "áíóúĄąŽžĘę¬źČş«»░▒▓│┤ÁÂĚŞ╣║╗╝Żż┐",
      "└┴┬├─┼Ăă╚╔╩╦╠═╬¤đĐĎËďŇÍÎě┘┌█▄ŢŮ▀", "ÓßÔŃńňŠšŔÚŕŰýÝţ´\xad˝˛ˇ˘§÷¸°¨˙űŘř■\xa0"]⟩,
  ⟨["cp855"],
    ["855", "csibm855", "ibm855"],
    .upperHalf ["ђЂѓЃёЁєЄѕЅіІїЇјЈљЉњЊћЋќЌўЎџЏюЮъЪ", "аАбБцЦдДеЕфФгГ«»░▒▓│┤хХиИ╣║╗╝йЙ┐",
      "└┴┬├─┼кК╚╔╩╦╠═╬¤лЛмМнНоОп┘┌█▄Пя▀", "ЯрРсСтТуУжЖвВьЬ№\xadыЫзЗшШэЭщЩчЧ§■\xa0"]⟩,
  ⟨["cp856"],
    [],
    .upperHalf [charsFrom 0x5d0 27, "�£�×", missing 10, "®¬½¼�«»░▒▓│┤���©╣║╗╝¢¥┐└┴┬├─┼��╚",
      "╔╩╦╠═╬¤", missing 9, "┘┌█▄¦�▀", missing 6, "µ", missing 7, "¯´\xad±‗¾¶§÷¸°¨·¹³²■\xa0"]⟩,
  ⟨["cp857"],
    ["857", "csibm857", "ibm857"],
    .upperHalf ["ÇüéâäàåçêëèïîıÄÅÉæÆôöòûùİÖÜø£ØŞş", "áíóúñÑĞğ¿®¬½¼¡«»░▒▓│┤ÁÂÀ©╣║╗╝¢¥┐",
      "└┴┬├─┼ãÃ╚╔╩╦╠═╬¤ºªÊËÈ�ÍÎÏ┘┌█▄¦Ì▀", "ÓßÔÒõÕµ�×ÚÛÙìÿ¯´\xad±�¾¶§÷¸°¨·¹³²■\xa0"]⟩,
  ⟨["cp858"],
    ["858", "csibm858", "ibm858"],
    .upperHalf ["ÇüéâäàåçêëèïîìÄÅÉæÆôöòûùÿÖÜø£Ø×ƒ", "áíóúñÑªº¿®¬½¼¡«»░▒▓│┤ÁÂÀ©╣║╗╝¢¥┐",
      "└┴┬├─┼ãÃ╚╔╩╦╠═╬¤ðÐÊËÈ€ÍÎÏ┘┌█▄¦Ì▀", "ÓßÔÒõÕµþÞÚÛÙýÝ¯´\xad±‗¾¶§÷¸°¨·¹³²■\xa0"]⟩,
  ⟨["cp860"],
    ["860", "csibm860", "ibm860"],
    .upperHalf ["ÇüéâãàÁçêÊèÍÔìÃÂÉÀÈôõòÚùÌÕÜ¢£Ù₧Ó", "áíóúñÑªº¿Ò¬½¼¡«»░▒▓│┤╡╢╖╕╣║╗╝╜╛┐",
      "└┴┬├─┼╞╟╚╔╩╦╠═╬╧╨╤╥╙╘╒╓╫╪┘┌█▄▌▐▀", "αßΓπΣσµτΦΘΩδ∞φε∩≡±≥≤⌠⌡÷≈°∙·√ⁿ²■\xa0"]⟩,
  ⟨["cp861"],
    ["861", "cp_is", "csibm861", "ibm861"],
    .upperHalf ["ÇüéâäàåçêëèÐðÞÄÅÉæÆôöþûÝýÖÜø£Ø₧ƒ", "áíóúÁÍÓÚ¿⌐¬½¼¡«»░▒▓│┤╡╢╖╕╣║╗╝╜╛┐",
      "└┴┬├─┼╞╟╚╔╩╦╠═╬╧╨╤╥╙╘╒╓╫╪┘┌█▄▌▐▀", "αßΓπΣσµτΦΘΩδ∞φε∩≡±≥≤⌠⌡÷≈°∙·√ⁿ²■\xa0"]⟩,
  ⟨["cp862"],
    ["862", "cspc862latinhebrew", "ibm862"],
    .upperHalf [charsFrom 0x5d0 27, "¢£¥₧ƒáíóúñÑªº¿⌐¬½¼¡«»░▒▓│┤╡╢╖╕╣║",
      "╗╝╜╛┐└┴┬├─┼╞╟╚╔╩╦╠═╬╧╨╤╥╙╘╒╓╫╪┘┌", "█▄▌▐▀αßΓπΣσµτΦΘΩδ∞φε∩≡±≥≤⌠⌡÷≈°∙·", "√ⁿ²■\xa0"]⟩,
  ⟨["cp863"],
    ["863", "csibm863", "ibm863"],
    .upperHalf ["ÇüéâÂà¶çêëèïî‗À§ÉÈÊôËÏûù¤ÔÜ¢£ÙÛƒ", "¦´óú¨¸³¯Î⌐¬½¼¾«»░▒▓│┤╡╢╖╕╣║╗╝╜╛┐",
      "└┴┬├─┼╞╟╚╔╩╦╠═╬╧╨╤╥╙╘╒╓╫╪┘┌█▄▌▐▀", "αßΓπΣσµτΦΘΩδ∞φε∩≡±≥≤⌠⌡÷≈°∙·√ⁿ²■\xa0"]⟩,
  ⟨["cp864"],
    ["864", "csibm864", "ibm864"],
    .whole [charsFrom 0x00 32, " !\"#$٪&'()*+,-./0123456789:;<=>?",
      "@ABCDEFGHIJKLMNOPQRSTUVWXYZ[\\]^_", "`abcdefghijklmnopqrstuvwxyz\x7b|\x7d~\x7f",
      "°·∙√▒─│┼┤┬├┴┐┌└┘β∞φ±½¼≈«»\ufef7\ufef8��\ufefb\ufefc�",
      "\xa0\xad\ufe82£¤\ufe84��\ufe8e\ufe8f\ufe95\ufe99،\ufe9d\ufea1\ufea5", charsFrom 0x660 10,
      "\ufed1\u061b\ufeb1\ufeb5\ufeb9\u061f¢\ufe80\ufe81\ufe83\ufe85\ufeca\ufe8b",
      "\ufe8d\ufe91\ufe93\ufe97\ufe9b\ufe9f\ufea3\ufea7\ufea9\ufeab\ufead\ufeaf\ufeb3",
      "\ufeb7\ufebb\ufebf\ufec1\ufec5\ufecb",
      "\ufecf¦¬÷×\ufec9\u0640\ufed3\ufed7\ufedb\ufedf\ufee3\ufee7\ufeeb\ufeed\ufeef",
      "\ufef3\ufebd\ufecc\ufece\ufecd\ufee1\ufe7d\u0651\ufee5\ufee9\ufeec\ufef0\ufef2",
      "\ufed0\ufed5\ufef5", "\ufef6\ufedd\ufed9\ufef1■�"]⟩,
  ⟨["cp865"],
    ["865", "csibm865", "ibm865"],
    .upperHalf ["ÇüéâäàåçêëèïîìÄÅÉæÆôöòûùÿÖÜø£Ø₧ƒ", "áíóúñÑªº¿⌐¬½¼¡«¤░▒▓│┤╡╢╖╕╣║╗╝╜╛┐",
      "└┴┬├─┼╞╟╚╔╩╦╠═╬╧╨╤╥╙╘╒╓╫╪┘┌█▄▌▐▀", "αßΓπΣσµτΦΘΩδ∞φε∩≡±≥≤⌠⌡÷≈°∙·√ⁿ²■\xa0"]⟩,
  ⟨["cp866"],
    ["866", "csibm866", "ibm866"],
    .upperHalf ["АБВГДЕЖЗИЙКЛМНОПРСТУФХЦЧШЩЪЫЬЭЮЯ", "абвгдежзийклмноп░▒▓│┤╡╢╖╕╣║╗╝╜╛┐",
      "└┴┬├─┼╞╟╚╔╩╦╠═╬╧╨╤╥╙╘╒╓╫╪┘┌█▄▌▐▀", "рстуфхцчшщъыьэюяЁёЄєЇїЎў°∙·√№¤■\xa0"]⟩,
  ⟨["cp869"],
    ["869", "cp_gr", "csibm869", "ibm869"],
    .upperHalf [missing 6, "Ά�·¬¦‘’Έ―ΉΊΪΌ��ΎΫ©Ώ²³ά£έήίϊΐόύΑΒ", "ΓΔΕΖΗ½ΘΙ«»░▒▓│┤ΚΛΜΝ╣║╗╝ΞΟ┐└┴┬├─┼",
      "ΠΡ╚╔╩╦╠═╬ΣΤΥΦΧΨΩαβγ┘┌█▄δε▀ζηθικλ", "μνξοπρσςτ΄\xad±υφχ§ψ΅°¨ωϋΰώ■\xa0"]⟩,
  ⟨["cp1006"],
    [],
    .upperHalf [charsFrom 0x80 33,
      "۰۱۲۳۴۵۶۷۸۹،\u061b\xad\u061f\ufe81\ufe8d\ufe8e\ufe8e\ufe8f\ufe91\ufb56\ufb58",
      "\ufe93\ufe95\ufe97\ufb66\ufb68\ufe99\ufe9b\ufe9d\ufe9f\ufb7a",
      "\ufb7c\ufea1\ufea3\ufea5\ufea7\ufea9\ufb84\ufeab\ufead\ufb8c\ufeaf\ufb8a\ufeb1",
      "\ufeb3\ufeb5\ufeb7\ufeb9\ufebb\ufebd\ufebf\ufec1\ufec5", charsFrom 0xfec9 9,
      "\ufed3\ufed5\ufed7\ufed9\ufedb\ufb92\ufb94\ufedd\ufedf\ufee0\ufee1\ufee3\ufb9e",
      "\ufee5\ufee7\ufe85\ufeed\ufba6\ufba8\ufba9\ufbaa\ufe80\ufe89\ufe8a\ufe8b\ufef1",
      "\ufef2\ufef3\ufbb0\ufbae\ufe7c\ufe7d"]⟩,
  ⟨["cp1125"],
    ["1125", "cp866u", "ibm1125", "ruscii"],
    .upperHalf ["АБВГДЕЖЗИЙКЛМНОПРСТУФХЦЧШЩЪЫЬЭЮЯ", "абвгдежзийклмноп░▒▓│┤╡╢╖╕╣║╗╝╜╛┐",
      "└┴┬├─┼╞╟╚╔╩╦╠═╬╧╨╤╥╙╘╒╓╫╪┘┌█▄▌▐▀", "рстуфхцчшщъыьэюяЁёҐґЄєІіЇї·√№¤■\xa0"]⟩]

/-- The sets of other systems with windows. -/
def desktopSets : List NamedCodec := [
  ⟨["mac_roman"],
    ["macintosh", "macroman"],
    .upperHalf ["ÄÅÇÉÑÖÜáàâäãåçéèêëíìîïñóòôöõúùûü", "†°¢£§•¶ß®©™´¨≠ÆØ∞±≤≥¥µ∂∑∏π∫ªºΩæø",
      "¿¡¬√ƒ≈∆«»…\xa0ÀÃÕŒœ–—“”‘’÷◊ÿŸ⁄€‹›ﬁﬂ", "‡·‚„‰ÂÊÁËÈÍÎÏÌÓÔ\uf8ffÒÚÛÙıˆ˜¯˘˙˚¸˝˛ˇ"]⟩,
  ⟨["mac_arabic"],
    [],
    .upperHalf ["Ä\xa0ÇÉÑÖÜáàâä\u06ba«çéèêëí…îïñó»ôö÷úùûü", " !\"#$٪&'()*+،-./",
      charsFrom 0x660 10, ":\u061b<=>\u061f❊", charsFrom 0x621 26, "[\\]^_", charsFrom 0x640 19,
      "\u067e\u0679\u0686\u06d5\u06a4\u06af\u0688\u0691\x7b|\x7d\u0698\u06d2"]⟩,
  ⟨["mac_croatian"],
    [],
    .upperHalf ["ÄÅÇÉÑÖÜáàâäãåçéèêëíìîïñóòôöõúùûü", "†°¢£§•¶ß®Š™´¨≠ŽØ∞±≤≥∆µ∂∑∏š∫ªºΩžø",
      "¿¡¬√ƒ≈Ć«Č…\xa0ÀÃÕŒœĐ—“”‘’÷◊\uf8ff©⁄€‹›Æ»", "–·‚„‰ÂćÁčÈÍÎÏÌÓÔđÒÚÛÙıˆ˜¯πË˚¸Êæˇ"]⟩,
  ⟨["mac_cyrillic"],
    ["maccyrillic"],
    .upperHalf ["АБВГДЕЖЗИЙКЛМНОПРСТУФХЦЧШЩЪЫЬЭЮЯ", "†°Ґ£§•¶І®©™Ђђ≠Ѓѓ∞±≤≥іµґЈЄєЇїЉљЊњ",
      "јЅ¬√ƒ≈∆«»…\xa0ЋћЌќѕ–—“”‘’÷„ЎўЏџ№Ёёя", "абвгдежзийклмнопрстуфхцчшщъыьэю€"]⟩,
  ⟨["mac_farsi"],
    [],
    .upperHalf ["Ä\xa0ÇÉÑÖÜáàâä\u06ba«çéèêëí…îïñó»ôö÷úùûü",
      " !\"#$٪&'()*+،-./۰۱۲۳۴۵۶۷۸۹:\u061b<=>\u061f", "❊", charsFrom 0x621 26, "[\\]^_",
      charsFrom 0x640 19, "\u067e\u0679\u0686\u06d5\u06a4\u06af\u0688\u0691\x7b|\x7d\u0698\u06d2"]⟩,
  ⟨["mac_greek"],
    ["macgreek"],
    .upperHalf ["Ä¹²É³ÖÜ΅àâä΄¨çéèêë£™îï•½‰ôö¦€ùûü", "†ΓΔΘΛΞΠß®©ΣΪ§≠°·Α±≤≥¥ΒΕΖΗΙΚΜΦΫΨΩ",
      "άΝ¬ΟΡ≈Τ«»…\xa0ΥΧΆΈœ–―“”‘’÷ΉΊΌΎέήίόΏ", "ύαβψδεφγηιξκλμνοπώρστθωςχυζϊϋΐΰ\xad"]⟩,
  ⟨["mac_iceland"],
    ["maciceland"],
    .upperHalf ["ÄÅÇÉÑÖÜáàâäãåçéèêëíìîïñóòôöõúùûü", "Ý°¢£§•¶ß®©™´¨≠ÆØ∞±≤≥¥µ∂∑∏π∫ªºΩæø",
      "¿¡¬√ƒ≈∆«»…\xa0ÀÃÕŒœ–—“”‘’÷◊ÿŸ⁄€ÐðÞþ", "ý·‚„‰ÂÊÁËÈÍÎÏÌÓÔ\uf8ffÒÚÛÙıˆ˜¯˘˙˚¸˝˛ˇ"]⟩,
  ⟨["mac_latin2"],
    ["mac_centeuro", "maccentraleurope", "maclatin2"],
    .upperHalf ["ÄĀāÉĄÖÜáąČäčĆćéŹźĎíďĒēĖóėôöõúĚěü", "†°Ę£§•¶ß®©™ę¨≠ģĮįĪ≤≥īĶ∂∑łĻļĽľĹĺŅ",
      "ņŃ¬√ńŇ∆«»…\xa0ňŐÕőŌ–—“”‘’÷◊ōŔŕŘ‹›řŖ", "ŗŠ‚„šŚśÁŤťÍŽžŪÓÔūŮÚůŰűŲųÝýķŻŁżĢˇ"]⟩,
  ⟨["mac_romanian"],
    [],
    .upperHalf ["ÄÅÇÉÑÖÜáàâäãåçéèêëíìîïñóòôöõúùûü", "†°¢£§•¶ß®©™´¨≠ĂȘ∞±≤≥¥µ∂∑∏π∫ªºΩăș",
      "¿¡¬√ƒ≈∆«»…\xa0ÀÃÕŒœ–—“”‘’÷◊ÿŸ⁄€‹›Țț", "‡·‚„‰ÂÊÁËÈÍÎÏÌÓÔ\uf8ffÒÚÛÙıˆ˜¯˘˙˚¸˝˛ˇ"]⟩,
  ⟨["mac_turkish"],
    ["macturkish"],
    .upperHalf ["ÄÅÇÉÑÖÜáàâäãåçéèêëíìîïñóòôöõúùûü", "†°¢£§•¶ß®©™´¨≠ÆØ∞±≤≥¥µ∂∑∏π∫ªºΩæø",
      "¿¡¬√ƒ≈∆«»…\xa0ÀÃÕŒœ–—“”‘’÷◊ÿŸĞğİıŞş", "‡·‚„‰ÂÊÁËÈÍÎÏÌÓÔ\uf8ffÒÚÛÙ\uf8a0ˆ˜¯˘˙˚¸˝˛ˇ"]⟩,
  ⟨["hp_roman8"],
    ["cp1051", "ibm1051", "r8", "roman8"],
    .upperHalf [charsFrom 0x80 33, "ÀÂÈÊËÎÏ´ˋˆ¨˜ÙÛ₤¯Ýý°ÇçÑñ¡¿¤£¥§ƒ¢â",
      "êôûáéóúàèòùäëöüÅîØÆåíøæÄìÖÜÉïßÔÁ", "ÃãÐðÍÌÓÒÕõŠšÚŸÿÞþ·µ¶¾—¼½ªº«■»±�"]⟩]

/-- The sets of mainframes, whose letters and signs do not have the numbers of ASCII. -/
def hostSets : List NamedCodec := [
  ⟨["cp037"],
    ["037", "csibm037", "ebcdic_cp_ca", "ebcdic_cp_nl", "ebcdic_cp_us", "ebcdic_cp_wt", "ibm037",
      "ibm039"],
    .whole [charsFrom 0x00 4, "\x9c\x09\x86\x7f\x97\x8d\x8e", charsFrom 0x0b 9,
      "\x9d\x85\x08\x87\x18\x19\x92\x8f", charsFrom 0x1c 4, charsFrom 0x80 5, "\x0a\x17\x1b",
      charsFrom 0x88 5, "\x05\x06\x07\x90\x91\x16", charsFrom 0x93 4, "\x04", charsFrom 0x98 4,
      "\x14\x15\x9e\x1a \xa0âäàáãåçñ¢.<(+|&éêëèíîïìß!$", "*);¬-/ÂÄÀÁÃÅÇÑ¦,%_>?øÉÊËÈÍÎÏÌ`:#",
      "@'=\"Øabcdefghi«»ðýþ±°jklmnopqrªº", "æ¸Æ¤µ~stuvwxyz¡¿ÐÝÞ®^£¥·©§¶¼½¾[]",
      "¯¨´×\x7bABCDEFGHI\xadôöòóõ\x7dJKLMNOPQR¹û", "üùúÿ\\÷STUVWXYZ²ÔÖÒÓÕ0123456789³Û", "ÜÙÚ\x9f"]⟩,
  ⟨["cp273"],
    ["273", "csibm273", "ibm273"],
    .whole [charsFrom 0x00 4, "\x9c\x09\x86\x7f\x97\x8d\x8e", charsFrom 0x0b 9,
      "\x9d\x85\x08\x87\x18\x19\x92\x8f", charsFrom 0x1c 4, charsFrom 0x80 5, "\x0a\x17\x1b",
      charsFrom 0x88 5, "\x05\x06\x07\x90\x91\x16", charsFrom 0x93 4, "\x04", charsFrom 0x98 4,
      "\x14\x15\x9e\x1a \xa0â\x7bàáãåçñÄ.<(+!&éêëèíîïì~Ü$", "*);^-/Â[ÀÁÃÅÇÑö,%_>?øÉÊËÈÍÎÏÌ`:#",
      "§'=\"Øabcdefghi«»ðýþ±°jklmnopqrªº", "æ¸Æ¤µßstuvwxyz¡¿ÐÝÞ®¢£¥·©@¶¼½¾¬|",
      "‾¨´×äABCDEFGHI\xadô¦òóõüJKLMNOPQR¹û", "\x7dùúÿÖ÷STUVWXYZ²Ô\\ÒÓÕ0123456789³Û", "]ÙÚ\x9f"]⟩,
  ⟨["cp424"],
    ["424", "csibm424", "ebcdic_cp_he", "ibm424"],
    .whole [charsFrom 0x00 4, "\x9c\x09\x86\x7f\x97\x8d\x8e", charsFrom 0x0b 9,
      "\x9d\x85\x08\x87\x18\x19\x92\x8f", charsFrom 0x1c 4, charsFrom 0x80 5, "\x0a\x17\x1b",
      charsFrom 0x88 5, "\x05\x06\x07\x90\x91\x16", charsFrom 0x93 4, "\x04", charsFrom 0x98 4,
      "\x14\x15\x9e\x1a ", charsFrom 0x5d0 9, "¢.<(+|&", charsFrom 0x5d9 9, "!$*);¬-/",
      charsFrom 0x5e2 8, "¦,%_>?�\u05ea��\xa0���‗`:#@'=\"�abcdefghi",
      "«»���±°jklmnopqr���¸�¤µ~stuvwxyz", "�����®^£¥·©§¶¼½¾[]¯¨´×\x7bABCDEFGHI",
      "\xad�����\x7dJKLMNOPQR¹�����\\÷STUVWXYZ", "²�����0123456789³����\x9f"]⟩,
  ⟨["cp500"],
    ["500", "csibm500", "ebcdic_cp_be", "ebcdic_cp_ch", "ibm500"],
    .whole [charsFrom 0x00 4, "\x9c\x09\x86\x7f\x97\x8d\x8e", charsFrom 0x0b 9,
      "\x9d\x85\x08\x87\x18\x19\x92\x8f", charsFrom 0x1c 4, charsFrom 0x80 5, "\x0a\x17\x1b",
      charsFrom 0x88 5, "\x05\x06\x07\x90\x91\x16", charsFrom 0x93 4, "\x04", charsFrom 0x98 4,
      "\x14\x15\x9e\x1a \xa0âäàáãåçñ[.<(+!&éêëèíîïìß]$", "*);^-/ÂÄÀÁÃÅÇÑ¦,%_>?øÉÊËÈÍÎÏÌ`:#",
      "@'=\"Øabcdefghi«»ðýþ±°jklmnopqrªº", "æ¸Æ¤µ~stuvwxyz¡¿ÐÝÞ®¢£¥·©§¶¼½¾¬|",
      "¯¨´×\x7bABCDEFGHI\xadôöòóõ\x7dJKLMNOPQR¹û", "üùúÿ\\÷STUVWXYZ²ÔÖÒÓÕ0123456789³Û", "ÜÙÚ\x9f"]⟩,
  ⟨["cp875"],
    [],
    .whole [charsFrom 0x00 4, "\x9c\x09\x86\x7f\x97\x8d\x8e", charsFrom 0x0b 9,
      "\x9d\x85\x08\x87\x18\x19\x92\x8f", charsFrom 0x1c 4, charsFrom 0x80 5, "\x0a\x17\x1b",
      charsFrom 0x88 5, "\x05\x06\x07\x90\x91\x16", charsFrom 0x93 4, "\x04", charsFrom 0x98 4,
      "\x14\x15\x9e\x1a ΑΒΓΔΕΖΗΘΙ[.<(+!&ΚΛΜΝΞΟΠΡΣ]$", "*);^-/ΤΥΦΧΨΩΪΫ|,%_>?¨ΆΈΉ\xa0ΊΌΎΏ`:#",
      "@'=\"΅abcdefghiαβγδεζ°jklmnopqrηθ", "ικλμ´~stuvwxyzνξοπρσ£άέήϊίόύϋώςτ",
      "υφχψ\x7bABCDEFGHI\xadωΐΰ‘―\x7dJKLMNOPQR±½",
      "\x1a·’¦\\\x1aSTUVWXYZ²§\x1a\x1a«¬0123456789³©", "\x1a\x1a»\x9f"]⟩,
  ⟨["cp1026"],
    ["1026", "csibm1026", "ibm1026"],
    .whole [charsFrom 0x00 4, "\x9c\x09\x86\x7f\x97\x8d\x8e", charsFrom 0x0b 9,
      "\x9d\x85\x08\x87\x18\x19\x92\x8f", charsFrom 0x1c 4, charsFrom 0x80 5, "\x0a\x17\x1b",
      charsFrom 0x88 5, "\x05\x06\x07\x90\x91\x16", charsFrom 0x93 4, "\x04", charsFrom 0x98 4,
      "\x14\x15\x9e\x1a \xa0âäàáãå\x7bñÇ.<(+!&éêëèíîïìßĞİ", "*);^-/ÂÄÀÁÃÅ[Ñş,%_>?øÉÊËÈÍÎÏÌı:Ö",
      "Ş'=ÜØabcdefghi«»\x7d`¦±°jklmnopqrªº", "æ¸Æ¤µöstuvwxyz¡¿]$@®¢£¥·©§¶¼½¾¬|",
      "¯¨´×çABCDEFGHI\xadô~òóõğJKLMNOPQR¹û", "\\ùúÿü÷STUVWXYZ²Ô#ÒÓÕ0123456789³Û", "\"ÙÚ\x9f"]⟩,
  ⟨["cp1140"],
    ["1140", "ibm1140"],
    .whole [charsFrom 0x00 4, "\x9c\x09\x86\x7f\x97\x8d\x8e", charsFrom 0x0b 9,
      "\x9d\x85\x08\x87\x18\x19\x92\x8f", charsFrom 0x1c 4, charsFrom 0x80 5, "\x0a\x17\x1b",
      charsFrom 0x88 5, "\x05\x06\x07\x90\x91\x16", charsFrom 0x93 4, "\x04", charsFrom 0x98 4,
      "\x14\x15\x9e\x1a \xa0âäàáãåçñ¢.<(+|&éêëèíîïìß!$", "*);¬-/ÂÄÀÁÃÅÇÑ¦,%_>?øÉÊËÈÍÎÏÌ`:#",
      "@'=\"Øabcdefghi«»ðýþ±°jklmnopqrªº", "æ¸Æ€µ~stuvwxyz¡¿ÐÝÞ®^£¥·©§¶¼½¾[]",
      "¯¨´×\x7bABCDEFGHI\xadôöòóõ\x7dJKLMNOPQR¹û", "üùúÿ\\÷STUVWXYZ²ÔÖÒÓÕ0123456789³Û", "ÜÙÚ\x9f"]⟩]

/-- Sets whose characters have several bytes, and sets that decode no single bytes. -/
def otherSets : List NamedCodec := [
  ⟨["hz"],
    ["hz_gb", "hz_gb_2312", "hzgb"],
    .whole [charsFrom 0x00 32, " !\"#$%&'()*+,-./0123456789:;<=>?",
      "@ABCDEFGHIJKLMNOPQRSTUVWXYZ[\\]^_", "`abcdefghijklmnopqrstuvwxyz\x7b|\x7d�\x7f",
      missing 128]⟩,
  ⟨["big5", "big5hkscs", "cp932", "cp949", "cp950", "euc_jis_2004", "euc_jisx0213", "euc_jp",
      "euc_kr", "gb18030", "gb2312", "gbk", "iso2022_kr", "johab", "shift_jis", "shift_jis_2004",
      "shift_jisx0213", "utf_16", "utf_16_be", "utf_16_le", "utf_32", "utf_32_be", "utf_32_le",
      "utf_7"],
    ["big5_tw", "csbig5", "x_mac_trad_chinese", "big5_hkscs", "hkscs", "932", "ms932", "ms_kanji",
      "mskanji", "949", "ms949", "uhc", "950", "ms950", "euc_jis2004", "eucjis2004", "jisx0213",
      "eucjisx0213", "eucjp", "u_jis", "ujis", "euckr", "korean", "ks_c_5601", "ks_c_5601_1987",
      "ks_x_1001", "ksc5601", "ksx1001", "x_mac_korean", "gb18030_2000", "chinese",
      "csiso58gb231280", "euc_cn", "euccn", "eucgb2312_cn", "gb2312_1980", "gb2312_80",
      "iso_ir_58", "x_mac_simp_chinese", "936", "cp936", "ms936", "csiso2022kr", "iso2022kr",
      "iso_2022_kr", "cp1361", "ms1361", "csshiftjis", "s_jis", "shiftjis", "sjis",
      "x_mac_japanese", "s_jis_2004", "shiftjis2004", "sjis_2004", "s_jisx0213", "shiftjisx0213",
      "sjisx0213", "u16", "utf16", "unicodebigunmarked", "utf_16be", "unicodelittleunmarked",
      "utf_16le", "u32", "utf32", "utf_32be", "utf_32le", "u7", "unicode_1_1_utf_7", "utf7"],
    .failing .multiByteEncoding⟩,
  ⟨["idna", "undefined"],
    [],
    .failing .unusableEncoding⟩,
  ⟨["punycode"],
    [],
    .failing .notText⟩]

/-- All sets that are known by a name. -/
def knownCodecs : List NamedCodec :=
  standardSets ++ windowsSets ++ cyrillicSets ++ consoleSets ++ desktopSets ++ hostSets ++ otherSets

end IdeModules.Xml
