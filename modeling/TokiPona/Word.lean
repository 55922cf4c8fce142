namespace TokiPona

/-- A word of the vocabulary. A word carries nothing beyond its spelling: the grammar asks it
    only for the roles below. -/
inductive Word where
  | a | akesi | ala | alasa | ale | anpa | ante | anu | awen
  | e | en | epiku | esun
  | ijo | ike | ilo | insa
  | jaki | jan | jasima | jelo | jo
  | kala | kalama | kama | kasi | ken | kepeken | kili | kin | kipisi | kiwen | ko | kon | kule
  | kulupu | kute
  | la | lanpan | lape | laso | lawa | leko | len | lete | li | lili | linja | lipu | loje
  | lon | luka | lukin | lupa
  | ma | mama | mani | meli | meso | mi | mije | misikeke | moku | moli | monsi | monsuta | mu
  | mun | musi | mute
  | n | namako | nanpa | nasa | nasin | nena | ni | nimi | noka
  | o | oko | olin | ona | «open»
  | pakala | pali | palisa | pan | pana | pi | pilin | pimeja | pini | pipi | poka | poki
  | pona | pu
  | sama | seli | selo | seme | sewi | sijelo | sike | sin | sina | sinpin | sitelen | soko
  | sona | soweli | su | suli | suno | supa | suwi
  | tan | taso | tawa | telo | tenpo | toki | tomo | tonsi | tu
  | unpa | uta | utala
  | walo | wan | waso | wawa | weka | wile
  deriving DecidableEq, Repr

namespace Word

/-- The lower-case spelling of a word. -/
def spelling : Word → String
  | .a => "a"
  | .akesi => "akesi"
  | .ala => "ala"
  | .alasa => "alasa"
  | .ale => "ale"
  | .anpa => "anpa"
  | .ante => "ante"
  | .anu => "anu"
  | .awen => "awen"
  | .e => "e"
  | .en => "en"
  | .epiku => "epiku"
  | .esun => "esun"
  | .ijo => "ijo"
  | .ike => "ike"
  | .ilo => "ilo"
  | .insa => "insa"
  | .jaki => "jaki"
  | .jan => "jan"
  | .jasima => "jasima"
  | .jelo => "jelo"
  | .jo => "jo"
  | .kala => "kala"
  | .kalama => "kalama"
  | .kama => "kama"
  | .kasi => "kasi"
  | .ken => "ken"
  | .kepeken => "kepeken"
  | .kili => "kili"
  | .kin => "kin"
  | .kipisi => "kipisi"
  | .kiwen => "kiwen"
  | .ko => "ko"
  | .kon => "kon"
  | .kule => "kule"
  | .kulupu => "kulupu"
  | .kute => "kute"
  | .la => "la"
  | .lanpan => "lanpan"
  | .lape => "lape"
  | .laso => "laso"
  | .lawa => "lawa"
  | .leko => "leko"
  | .len => "len"
  | .lete => "lete"
  | .li => "li"
  | .lili => "lili"
  | .linja => "linja"
  | .lipu => "lipu"
  | .loje => "loje"
  | .lon => "lon"
  | .luka => "luka"
  | .lukin => "lukin"
  | .lupa => "lupa"
  | .ma => "ma"
  | .mama => "mama"
  | .mani => "mani"
  | .meli => "meli"
  | .meso => "meso"
  | .mi => "mi"
  | .mije => "mije"
  | .misikeke => "misikeke"
  | .moku => "moku"
  | .moli => "moli"
  | .monsi => "monsi"
  | .monsuta => "monsuta"
  | .mu => "mu"
  | .mun => "mun"
  | .musi => "musi"
  | .mute => "mute"
  | .n => "n"
  | .namako => "namako"
  | .nanpa => "nanpa"
  | .nasa => "nasa"
  | .nasin => "nasin"
  | .nena => "nena"
  | .ni => "ni"
  | .nimi => "nimi"
  | .noka => "noka"
  | .o => "o"
  | .oko => "oko"
  | .olin => "olin"
  | .ona => "ona"
  | .«open» => "open"
  | .pakala => "pakala"
  | .pali => "pali"
  | .palisa => "palisa"
  | .pan => "pan"
  | .pana => "pana"
  | .pi => "pi"
  | .pilin => "pilin"
  | .pimeja => "pimeja"
  | .pini => "pini"
  | .pipi => "pipi"
  | .poka => "poka"
  | .poki => "poki"
  | .pona => "pona"
  | .pu => "pu"
  | .sama => "sama"
  | .seli => "seli"
  | .selo => "selo"
  | .seme => "seme"
  | .sewi => "sewi"
  | .sijelo => "sijelo"
  | .sike => "sike"
  | .sin => "sin"
  | .sina => "sina"
  | .sinpin => "sinpin"
  | .sitelen => "sitelen"
  | .soko => "soko"
  | .sona => "sona"
  | .soweli => "soweli"
  | .su => "su"
  | .suli => "suli"
  | .suno => "suno"
  | .supa => "supa"
  | .suwi => "suwi"
  | .tan => "tan"
  | .taso => "taso"
  | .tawa => "tawa"
  | .telo => "telo"
  | .tenpo => "tenpo"
  | .toki => "toki"
  | .tomo => "tomo"
  | .tonsi => "tonsi"
  | .tu => "tu"
  | .unpa => "unpa"
  | .uta => "uta"
  | .utala => "utala"
  | .walo => "walo"
  | .wan => "wan"
  | .waso => "waso"
  | .wawa => "wawa"
  | .weka => "weka"
  | .wile => "wile"

/-- The whole vocabulary, in alphabetical order. -/
def all : List Word :=
  [.a, .akesi, .ala, .alasa, .ale, .anpa, .ante, .anu, .awen, .e, .en, .epiku, .esun, .ijo,
   .ike, .ilo, .insa, .jaki, .jan, .jasima, .jelo, .jo, .kala, .kalama, .kama, .kasi, .ken,
   .kepeken, .kili, .kin, .kipisi, .kiwen, .ko, .kon, .kule, .kulupu, .kute, .la, .lanpan,
   .lape, .laso, .lawa, .leko, .len, .lete, .li, .lili, .linja, .lipu, .loje, .lon, .luka,
   .lukin, .lupa, .ma, .mama, .mani, .meli, .meso, .mi, .mije, .misikeke, .moku, .moli, .monsi,
   .monsuta, .mu, .mun, .musi, .mute, .n, .namako, .nanpa, .nasa, .nasin, .nena, .ni, .nimi,
   .noka, .o, .oko, .olin, .ona, .«open», .pakala, .pali, .palisa, .pan, .pana, .pi, .pilin,
   .pimeja, .pini, .pipi, .poka, .poki, .pona, .pu, .sama, .seli, .selo, .seme, .sewi, .sijelo,
   .sike, .sin, .sina, .sinpin, .sitelen, .soko, .sona, .soweli, .su, .suli, .suno, .supa,
   .suwi, .tan, .taso, .tawa, .telo, .tenpo, .toki, .tomo, .tonsi, .tu, .unpa, .uta, .utala,
   .walo, .wan, .waso, .wawa, .weka, .wile]

/-- The word that has exactly this spelling. -/
def ofSpelling? (text : String) : Option Word :=
  all.find? (fun w => w.spelling == text)

/-- The name of a word in the vocabulary listing: its spelling in capitals. -/
def name (w : Word) : String :=
  w.spelling.map Char.toUpper

/-- The words that open a predicate: `li`, and `o` for the imperative. -/
def isPredicateMarker : Word → Bool
  | .li | .o => true
  | _ => false

/-- The words that may open a trailing prepositional phrase. -/
def isPreposition : Word → Bool
  | .tawa | .kepeken | .lon => true
  | _ => false

/-- The words that may stand before a verb to modify it. -/
def isPreverb : Word → Bool
  | .kama | .wile => true
  | _ => false

/-- The function words, which neither head nor modify a noun phrase. -/
def isParticle : Word → Bool
  | .li | .o | .la | .e | .a => true
  | _ => false

/-- The pronouns that stand as a subject without `li`. -/
def isBarePronoun : Word → Bool
  | .mi | .sina => true
  | _ => false

theorem mem_all (w : Word) : w ∈ all := by
  cases w <;> decide

end Word

/-- Words written in a row, one blank between them. -/
def spell (words : List Word) : String :=
  " ".intercalate (words.map Word.spelling)

end TokiPona
