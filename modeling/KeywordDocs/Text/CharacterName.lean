import KeywordDocs.Text.Case
import KeywordDocs.Text.Phrase

/-!
# Names of Characters

The names by which a text literal can refer to Latin and Greek letters, punctuation and common symbols.
-/

namespace KeywordDocs.Text

def characterNames : List (Nat × String) :=
  [(0x20, "SPACE;EXCLAMATION MARK;QUOTATION MARK;NUMBER SIGN;DOLLAR SIGN;PERCENT SIGN;AMPERSAND;
APOSTROPHE;LEFT PARENTHESIS;RIGHT PARENTHESIS;ASTERISK;PLUS SIGN;COMMA;HYPHEN-MINUS;FULL STOP;SOLIDUS;
DIGIT ZERO;1ONE;1TWO;1THREE;1FOUR;1FIVE;1SIX;1SEVEN;1EIGHT;1NINE;COLON;SEMICOLON;LESS-THAN SIGN;
EQUALS SIGN;GREATER-THAN SIGN;QUESTION MARK;COMMERCIAL AT;LATIN CAPITAL LETTER A;3B;3C;3D;3E;3F;3G;3H;
3I;3J;3K;3L;3M;3N;3O;3P;3Q;3R;3S;3T;3U;3V;3W;3X;3Y;3Z;LEFT SQUARE BRACKET;REVERSE SOLIDUS;
RIGHT SQUARE BRACKET;CIRCUMFLEX ACCENT;LOW LINE;GRAVE ACCENT;LATIN SMALL LETTER A;3B;3C;3D;3E;3F;3G;3H;
3I;3J;3K;3L;3M;3N;3O;3P;3Q;3R;3S;3T;3U;3V;3W;3X;3Y;3Z;LEFT CURLY BRACKET;VERTICAL LINE;
RIGHT CURLY BRACKET;TILDE"),
   (0xA0, "NO-BREAK SPACE;INVERTED EXCLAMATION MARK;CENT SIGN;POUND SIGN;CURRENCY SIGN;YEN SIGN;
BROKEN BAR;SECTION SIGN;DIAERESIS;COPYRIGHT SIGN;FEMININE ORDINAL INDICATOR;
LEFT-POINTING DOUBLE ANGLE QUOTATION MARK;NOT SIGN;SOFT HYPHEN;REGISTERED SIGN;MACRON;DEGREE SIGN;
PLUS-MINUS SIGN;SUPERSCRIPT TWO;1THREE;ACUTE ACCENT;MICRO SIGN;PILCROW SIGN;MIDDLE DOT;CEDILLA;
SUPERSCRIPT ONE;MASCULINE ORDINAL INDICATOR;RIGHT-POINTING DOUBLE ANGLE QUOTATION MARK;
VULGAR FRACTION ONE QUARTER;3HALF;2THREE QUARTERS;INVERTED QUESTION MARK;
LATIN CAPITAL LETTER A WITH GRAVE;5ACUTE;5CIRCUMFLEX;5TILDE;5DIAERESIS;5RING ABOVE;3AE;3C WITH CEDILLA;
3E WITH GRAVE;5ACUTE;5CIRCUMFLEX;5DIAERESIS;3I WITH GRAVE;5ACUTE;5CIRCUMFLEX;5DIAERESIS;3ETH;
3N WITH TILDE;3O WITH GRAVE;5ACUTE;5CIRCUMFLEX;5TILDE;5DIAERESIS;MULTIPLICATION SIGN;
LATIN CAPITAL LETTER O WITH STROKE;3U WITH GRAVE;5ACUTE;5CIRCUMFLEX;5DIAERESIS;3Y WITH ACUTE;3THORN;
1SMALL LETTER SHARP S;3A WITH GRAVE;5ACUTE;5CIRCUMFLEX;5TILDE;5DIAERESIS;5RING ABOVE;3AE;
3C WITH CEDILLA;3E WITH GRAVE;5ACUTE;5CIRCUMFLEX;5DIAERESIS;3I WITH GRAVE;5ACUTE;5CIRCUMFLEX;5DIAERESIS;
3ETH;3N WITH TILDE;3O WITH GRAVE;5ACUTE;5CIRCUMFLEX;5TILDE;5DIAERESIS;DIVISION SIGN;
LATIN SMALL LETTER O WITH STROKE;3U WITH GRAVE;5ACUTE;5CIRCUMFLEX;5DIAERESIS;3Y WITH ACUTE;3THORN;
3Y WITH DIAERESIS"),
   (0x391, "GREEK CAPITAL LETTER ALPHA;3BETA;3GAMMA;3DELTA;3EPSILON;3ZETA;3ETA;3THETA;3IOTA;3KAPPA;
3LAMDA;3MU;3NU;3XI;3OMICRON;3PI;3RHO"),
   (0x3A3, "GREEK CAPITAL LETTER SIGMA;3TAU;3UPSILON;3PHI;3CHI;3PSI;3OMEGA"),
   (0x3B1, "GREEK SMALL LETTER ALPHA;3BETA;3GAMMA;3DELTA;3EPSILON;3ZETA;3ETA;3THETA;3IOTA;3KAPPA;3LAMDA;
3MU;3NU;3XI;3OMICRON;3PI;3RHO;3FINAL SIGMA;3SIGMA;3TAU;3UPSILON;3PHI;3CHI;3PSI;3OMEGA"),
   (0x2010, "HYPHEN;NON-BREAKING HYPHEN;FIGURE DASH;EN DASH;EM DASH;HORIZONTAL BAR;DOUBLE VERTICAL LINE;
1LOW LINE;LEFT SINGLE QUOTATION MARK;RIGHT SINGLE QUOTATION MARK;SINGLE LOW-9 QUOTATION MARK;
1HIGH-REVERSED-9 QUOTATION MARK;LEFT DOUBLE QUOTATION MARK;RIGHT DOUBLE QUOTATION MARK;
DOUBLE LOW-9 QUOTATION MARK;1HIGH-REVERSED-9 QUOTATION MARK;DAGGER;DOUBLE DAGGER;BULLET;
TRIANGULAR BULLET;ONE DOT LEADER;TWO DOT LEADER;HORIZONTAL ELLIPSIS;HYPHENATION POINT"),
   (0x2030, "PER MILLE SIGN"),
   (0x2032, "PRIME;DOUBLE PRIME"),
   (0x2039, "SINGLE LEFT-POINTING ANGLE QUOTATION MARK;1RIGHT-POINTING ANGLE QUOTATION MARK"),
   (0x20AC, "EURO SIGN"),
   (0x2122, "TRADE MARK SIGN"),
   (0x2190, "LEFTWARDS ARROW;UPWARDS ARROW;RIGHTWARDS ARROW;DOWNWARDS ARROW;LEFT RIGHT ARROW;
UP DOWN ARROW"),
   (0x2212, "MINUS SIGN"),
   (0x221E, "INFINITY"),
   (0x2260, "NOT EQUAL TO"),
   (0x2264, "LESS-THAN OR EQUAL TO;GREATER-THAN OR EQUAL TO"),
   (0x2713, "CHECK MARK"),
   (0x2717, "BALLOT X"),
   (0xFFFD, "REPLACEMENT CHARACTER"),
   (0x0, "NULL"),
   (0x7, "ALERT;BACKSPACE;CHARACTER TABULATION;LINE FEED;LINE TABULATION;FORM FEED;CARRIAGE RETURN"),
   (0x1B, "ESCAPE"),
   (0x7F, "DELETE"),
   (0x85, "NEXT LINE"),
   (0xA0, "NBSP"),
   (0xAD, "SHY"),
   (0x200B, "ZWSP;ZWNJ;ZWJ"),
   (0xFEFF, "BOM"),
   (0x9, "TAB;NEW LINE"),
   (0xA, "LF"),
   (0xD, "CR")]

def namesFrom (before : List (List Char)) : List (List Char) → List (List (List Char))
  | [] => []
  | cs :: rest =>
    let words := match cs with
      | d :: tail =>
        if d.isDigit then before.take (d.toNat - 48) ++ splitAtChar ' ' tail else splitAtChar ' ' cs
      | [] => [[]]
    words :: namesFrom words rest

def natOfHexDigits (cs : List Char) : Nat :=
  cs.foldl (fun n c => n * 16 + (if c.isDigit then c.toNat - 48 else c.toLower.toNat - 87)) 0

def characterNamed? (name : String) : Option Char :=
  let wanted := splitAtChar ' ' (upper name).toList
  characterNames.findSome? fun (first, names) =>
    let listed := splitAtChar ';' (names.toList.filter (· ≠ '\n'))
    ((namesFrom [] listed).findIdx? (· = wanted)).map fun i => Char.ofNat (first + i)

end KeywordDocs.Text
