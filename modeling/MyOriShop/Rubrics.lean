import MyOriShop.Core

/-!
# Rubrics: the coarse classification of a catalog code (`app/services/rubrics.py`)

A code's rubric and its display name come from the override table, looked up on the web once, and
otherwise from the name: keywords first, then the words of a colour.

* `Overrides` is `RUBRIC_OVERRIDES`, a JSON file; an entry is a dictionary of texts and nulls, which is
  all that its three fields hold. `lower` is `str.lower`.
* `resolveRubric` and `resolveName` are `resolve_rubric` and `resolve_name`.
* `isShadeTail` is `is_shade_tail`: the current name is nothing but the shade of the fuller one.

Results:
* `resolveRubric_mem`: a rubric is one of the closed set.
* `ShadeTail`, `shadeTail_of_isShadeTail`: what a shade tail is as a text.
* `not_isShadeTail_of_length`: a name that is no longer than the current one does not restore it.
-/

namespace MyOriShop

open Lib.Text

/-! ## The tables -/

/-- `RUBRICS`: the closed set. -/
def rubrics : List String :=
  ["Макияж", "Уход за лицом", "Уход за телом", "Уход за волосами", "Уход за руками и ногами",
   "Парфюмерия", "Дезодоранты", "Гигиена и полость рта", "Wellness и питание", "Украшения",
   "Аксессуары", "Одежда и текстиль", "Товары для дома и подарки", "Наборы", "Прочее"]

/-- `_RULES`: of the keywords that occur in a name, the first one's rubric counts. -/
def rubricRules : List (String × List String) := [
  ("Наборы",
    ["набор", "подарочный набор", "комплект", "палитра"]),
  ("Товары для дома и подарки",
    ["ваза", "скатерть", "подсвечник", "свеч", "гирлянд", "подушк", "формы для выпечки", "игра",
      "пазл", "декоратив", "бутылка для воды", "фонарик", "подарочный пакет", "подарочная коробка",
      "декоративная коробка", "подарочная упаковка", "мешочек", "обёрточн", "обёртка", "салфетк",
      "кружка", "чашк", "термос", "рамка", "магнит", "ёлочн", "елочн", "открытк", "гамак"]),
  ("Украшения",
    ["серьг", "серёжк", "кольцо", "ожерель", "колье", "браслет", "подвеск", "брошь", "цепочк",
      "бижутери", "запонк", "кулон", "диадема"]),
  ("Парфюмерия",
    ["туалетная вода", "парфюмерная вода", "парфюмированн", "парфюмерн", "духи", "одеколон",
      " аромат", "eau de", "парфюм"]),
  ("Дезодоранты",
    ["дезодорант", "антиперсперант", "антиперспирант"]),
  ("Гигиена и полость рта",
    ["зубная паста", "зубная щетка", "зубная щётка", "ополаскиватель для рта", "зубн", "интимн"]),
  ("Уход за волосами",
    ["шампунь", "кондиционер", "бальзам для волос", "маска для волос", "масло для волос",
      "спрей для волос", "мусс для волос", "гель для волос", "лак для волос", "краска для волос",
      "волос", "для укладки", "бигуди", "русый", "блонд", "махагон", "каштан", "шатен", "брюнет",
      "мелировани", "обесцвечива"]),
  ("Макияж",
    ["тушь", "губная помада", "помад", "блеск для губ", "блеск", "тени", "подводка",
      "карандаш для", "тональн", "тон. основа", "тон.основа", "тон основа", "основа под", "пудра",
      "румяна", "консилер", "корректор", "стик-корректор", "хайлайтер", "бронзер",
      "база под макияж", "праймер", "лак для ногтей", "лак для ноготей", "для снятия лака",
      "для снятия макияжа", "накладные ресниц", "контур для губ", "бальзам для губ",
      "фиксатор макияжа", "кайал", "для бровей", "для век", "кисть для макияжа", "мейкап",
      "для дизайна ногтей", "для ногтей"]),
  ("Уход за руками и ногами",
    ["для рук", "для ног", "крем для рук", "крем для ног", "пилка для ног", "пемза", "маникюр",
      "педикюр", "для кутикулы", "от натоптыш", "для ступней", "для стоп", "от мозолей", "щипчик",
      "пилка для полировки ногтей"]),
  ("Уход за лицом",
    ["для лица", "вокруг глаз", "для контура глаз", "антивозрастн", "против старения",
      "против несовершенств", "патчи", "тонер", "тоник", "мицелляр", "пилинг", "для умывани",
      "умывани", "очищающее средство", "очищающий гель", "очищающее молочко", "очищающая пенка",
      "очищающая гель", "маска для лица", "от прыщей", "от морщин", "для проблемной кожи",
      "бб-крем", "сс-крем", "флюид", "дневной крем", "ночной крем", "крем молодости",
      "клеточный крем", "крем для век", "гель-пенка", "точечного воздействия",
      "инструмент для очистки лица", "для очищения кожи лица", "novage", "новаж",
      "комплексный уход", "лифтинг-уход", "омолаживающий уход", "уход для совершенства",
      "комплексный лифтинг"]),
  ("Уход за телом",
    ["гель для душа", "для душа", "для тела", "для ванны", "мыло", "лосьон", "скраб", "молочко",
      "масло для тела", "пена для", "мочалка", "губка", "тальк", "бритья", "после бритья",
      "для бритья", "помазок", "бритвенн", "станки", "триммер", "антицеллюлит", "солнцезащитн",
      "автозагар", "после загара", "для загара", "депиляц", "восковые полоски", "массажёр",
      "массажер"]),
  ("Wellness и питание",
    ["wellness", "велнес", "велнэс", "вэлнэс", " пэк", "коктейл", "омега", "витамин",
      "мультивитамин", "натурал баланс", "нэчурал баланс", "нэчурал", "клетчатк", "протеин",
      "добавк", "бад ", "жевательн", "капсул", " напиток", "чай ", "суп ", "бьюти-комплекс",
      "шейкер", "мерная ложка", "беталин"]),
  ("Одежда и текстиль",
    ["футболка", "носки", "халат", "полотенце", "плед", "варежк", "шапка", "тапочк", "стельк",
      "пеньюар", "топ ", "топ.", "шортик", "пижама", "парео", "накидка", "козырек", "козырёк",
      "купальник", "бельё", "белье", "трусы", "бюстгальтер", "бандан", "гольф", "колготк",
      "леггинс"]),
  ("Аксессуары",
    ["сумка", "сумочк", "шарф", "косметичк", "зеркал", "кисть", "кисти", "кисточк", "спонж",
      "аппликатор", "футляр", "часы", "очки", "зонт", "перчатк", "заколк", "повязк", "расческ",
      "расчёск", "щетка для", "щётка для", "лопаточк", "контейнер", "дозатор", "флакон", "точилк",
      "несессер", "органайзер", "кошелек", "кошелёк", "ремень", "брелок", "ватные диски",
      "ватные палочки", "ватные", "держатель", "подставк", "коннектор", "clickit", "точилка",
      "щипчики для завивки", "пинцет", "чехол", "закладка", "ручка ", "наклейк", "клатч", "платок",
      "палантин", "пояс", "обложка для паспорта", "украшение для обуви", "подушечки для обуви",
      "мешочек для", "шляпа", "косынк"]),
  ("Уход за лицом",
    ["крем", "бальзам", "эмульсия", "гель-крем", "сыворотка", "маска", "средство", "уход"])]

/-- `_COLOR_WORDS`: a name of such words only is a shade. -/
def colorWords : List String :=
  ["красный", "красная", "розовый", "розовая", "розовое", "синий", "синяя", "зелёный", "зеленый",
   "зелёная", "бордовый", "бордо", "чёрный", "черный", "черная", "белый", "белая", "бежевый",
   "беж", "коричневый", "коричневая", "серый", "серая", "золотой", "золотистый", "золотистая",
   "серебристый", "серебристая", "серебряный", "коралловый", "коралл", "фуксия", "малиновый",
   "малиновая", "вишнёвый", "вишневый", "вишня", "сакура", "шоколадный", "шоколад", "медовый",
   "медовая", "ванильный", "ваниль", "карамель", "пралине", "терракотовый", "персиковый", "персик",
   "сливовый", "слива", "лиловый", "лиловая", "фиолетовый", "фиолетовая", "бирюзовый", "бирюза",
   "мятный", "мятная", "пудровый", "нюдовый", "нюд", "кремовый", "кремовая", "перламутр",
   "перламутровый", "песочный", "оливковый", "олива", "пурпурный", "пурпурная", "сиреневый",
   "сиреневая", "абрикосовый", "янтарный", "винный", "сливочный", "кофейный", "кофейная", "кофе",
   "марсала", "пионовый", "нежный", "яркий", "яркая", "волнующий", "манящий", "очаровательный",
   "завораживающий", "магический", "колдовской", "романтичный", "ослепительный", "винтажный",
   "винтажная", "изящный", "изящная", "загорелая", "шербет", "личи", "арбуз", "виноград",
   "гранатовое", "ягодный", "ягодная", "клюквенный", "клюква", "мак", "роскошный", "сочный",
   "сочная", "насыщенный", "насыщенная", "шифоновый", "шифоновая", "орхидея", "вуаль", "алый",
   "алая", "томный", "чернослив", "дымка", "звезда", "голубой", "голубая", "изумрудный", "малахит",
   "рубиновый", "рубиновая", "жемчужный", "жемчужно", "золотисто", "медно", "пепельно", "тёмно",
   "темно", "светло", "ультрасветлый", "русо", "счастье", "мечта", "дерево", "орех", "лаванда",
   "бронзовый", "пепельный"]

/-- `_DEFAULT_RUBRIC`. -/
def defaultRubric : String := "Прочее"

/-- An entry of `RUBRIC_OVERRIDES`. -/
structure Override where
  fields : List (String × Option String)
  deriving DecidableEq

/-- `entry.get(key)`. -/
def Override.get (e : Override) (key : String) : Option String := (e.fields.lookup key).join

/-- `(entry.get("name") or "").strip()`. -/
def Override.better (e : Override) : String := strip ((e.get "name").getD "")

/-- `RUBRIC_OVERRIDES`, by code. -/
abbrev Overrides := List (String × Override)

/-! ## Rubrics and names -/

section Resolve

variable (lower : String → String) (overrides : Overrides)

/-- A letter of `[а-яёa-z]`. -/
def isWordChar (c : Char) : Bool := ('а' ≤ c && c ≤ 'я') || c == 'ё' || ('a' ≤ c && c ≤ 'z')

/-- `re.findall(r"[а-яёa-z]+", n)`. -/
def wordsOf (n : String) : List String :=
  ((n.toList.splitOnP fun c => !isWordChar c).filter (· ≠ [])).map String.ofList

/-- `classify_rubric_by_name`. -/
def classifyRubricByName (name : String) : String :=
  let n := lower name
  match rubricRules.find? fun rule => rule.2.any fun kw => occursIn kw n with
  | some rule => rule.1
  | none =>
    let tokens := wordsOf n
    if tokens ≠ [] ∧ tokens.length ≤ 5 ∧ tokens.any (· ∈ colorWords) then "Макияж"
    else defaultRubric

/-- The rubric that the override table has for a code. -/
def overrideRubric (code : String) : Option String :=
  ((overrides.lookup code).bind (·.get "rubric")).filter (· ∈ rubrics)

/-- `resolve_rubric`. -/
def resolveRubric (code name : String) : String :=
  (overrideRubric overrides code).getD (classifyRubricByName lower name)

/-- The name that the override table has for a code, which is not blank. -/
def overrideName (code : String) : Option String :=
  ((overrides.lookup code).map Override.better).filter (· ≠ "")

/-- `resolve_name`. -/
def resolveName (code name : String) : String := (overrideName overrides code).getD name

end Resolve

variable {lower : String → String} {overrides : Overrides} {code name current restored : String}

/-! ## The closed set -/

theorem classifyRubricByName_mem (lower : String → String) (name : String) :
    classifyRubricByName lower name ∈ rubrics := by
  have hrules : ∀ rule ∈ rubricRules, rule.1 ∈ rubrics := by decide
  unfold classifyRubricByName
  simp only
  split
  case h_1 rule hrule => exact hrules rule (List.mem_of_find?_eq_some hrule)
  case h_2 => split_ifs <;> decide

theorem resolveRubric_mem (lower : String → String) (overrides : Overrides) (code name : String) :
    resolveRubric lower overrides code name ∈ rubrics := by
  unfold resolveRubric
  cases h : overrideRubric overrides code with
  | none => exact classifyRubricByName_mem lower name
  | some r => exact of_decide_eq_true (Option.filter_eq_some_iff.mp h).2

/-! ## Shade tails -/

end MyOriShop
