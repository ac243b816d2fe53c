import DigRelay.Common.Text

/-!
# Token lists and lines that set a field

A list written in a text separates its tokens by one character and may put white space around each. The
tokens of two texts joined by the separator are those of both. Lowering ASCII letters commutes with
splitting and trimming, as no letter is a separator or white space. A loop whose steps set a field holds
in the end what the last of them set.
-/

namespace Common

/-- The trimmed texts between the separators. -/
def tokens (sep : Char) (text : List Char) : List (List Char) := (text.splitOn sep).map trim

/-- White space before a text is trimmed. -/
theorem trim_append_left {space : List Char} (h : ∀ c ∈ space, isWhitespace c = true)
    (text : List Char) : trim (space ++ text) = trim text := by
  rw [trim, List.dropWhile_append_of_pos h, ← trim]

/-- White space after a text is trimmed. -/
theorem trim_append_right {space : List Char} (h : ∀ c ∈ space, isWhitespace c = true)
    (text : List Char) : trim (text ++ space) = trim text := by
  have hspace : ∀ c ∈ space.reverse, isWhitespace c = true := fun c hc => h c (List.mem_reverse.mp hc)
  rw [trim, trim, List.dropWhile_append]
  split
  · rename_i hempty
    have hdrop : space.dropWhile isWhitespace = [] := List.dropWhile_eq_nil_iff.mpr h
    rw [hdrop, List.isEmpty_iff.mp hempty]
  · rw [List.rdropWhile, List.reverse_append, List.dropWhile_append_of_pos hspace, ← List.rdropWhile]

/-- A text is its trimmed part between white space. -/
theorem exists_eq_append_trim (text : List Char) :
    ∃ front back, (∀ c ∈ front, isWhitespace c = true) ∧ (∀ c ∈ back, isWhitespace c = true) ∧
      text = front ++ trim text ++ back := by
  refine ⟨text.takeWhile isWhitespace, (text.dropWhile isWhitespace).rtakeWhile isWhitespace,
    fun c hc => List.mem_takeWhile_imp hc, fun c hc => List.mem_rtakeWhile_imp hc, ?_⟩
  rw [List.append_assoc, trim, List.rdropWhile_append_rtakeWhile, List.takeWhile_append_dropWhile]

/-- The tokens of two texts joined by the separator. -/
theorem tokens_append_cons (sep : Char) (left right : List Char) :
    tokens sep (left ++ sep :: right) = tokens sep left ++ tokens sep right := by
  rw [tokens, List.splitOn_append_cons_self, List.map_append, ← tokens, ← tokens]

/-- A text without the separator is one token. -/
theorem tokens_of_not_mem {sep : Char} {text : List Char} (h : sep ∉ text) :
    tokens sep text = [trim text] := by
  rw [tokens, List.splitOn_eq_singleton h, List.map_singleton]

section Separator

variable {sep : Char} (hsep : isWhitespace sep = false)

include hsep

/-- White space holds no separator. -/
theorem sep_not_mem_space {space : List Char} (h : ∀ c ∈ space, isWhitespace c = true) : sep ∉ space := by
  intro hmem
  rw [h sep hmem] at hsep
  cases hsep

/-- White space before a text adds no token. -/
theorem tokens_space_append {space : List Char} (h : ∀ c ∈ space, isWhitespace c = true)
    (text : List Char) : tokens sep (space ++ text) = tokens sep text := by
  have hspace := sep_not_mem_space hsep h
  by_cases hmem : sep ∈ text
  · obtain ⟨first, rest, rfl, hfirst⟩ := List.eq_append_cons_of_mem hmem
    have hboth : sep ∉ space ++ first := List.not_mem_append hspace hfirst
    rw [← List.append_assoc, tokens_append_cons, tokens_append_cons, tokens_of_not_mem hboth,
      tokens_of_not_mem hfirst, trim_append_left h]
  · have hboth : sep ∉ space ++ text := List.not_mem_append hspace hmem
    rw [tokens_of_not_mem hboth, tokens_of_not_mem hmem, trim_append_left h]

/-- White space after a text adds no token. -/
theorem tokens_append_space {space : List Char} (h : ∀ c ∈ space, isWhitespace c = true)
    (text : List Char) : tokens sep (text ++ space) = tokens sep text := by
  have hspace := sep_not_mem_space hsep h
  by_cases hmem : sep ∈ text
  · -- Only the text after the last separator meets the white space.
    obtain ⟨last, front, htext, hlast⟩ := List.eq_append_cons_of_mem (List.mem_reverse.mpr hmem)
    have hrev : text = front.reverse ++ sep :: last.reverse := by
      rw [← List.reverse_reverse text, htext]
      simp
    have hlast' : sep ∉ last.reverse := fun hc => hlast (List.mem_reverse.mp hc)
    have hboth : sep ∉ last.reverse ++ space := List.not_mem_append hlast' hspace
    rw [hrev, List.append_assoc, List.cons_append, tokens_append_cons, tokens_append_cons,
      tokens_of_not_mem hboth, tokens_of_not_mem hlast', trim_append_right h]
  · have hboth : sep ∉ text ++ space := List.not_mem_append hmem hspace
    rw [tokens_of_not_mem hboth, tokens_of_not_mem hmem, trim_append_right h]

/-- Trimming a list keeps its tokens. -/
theorem tokens_trim (text : List Char) : tokens sep (trim text) = tokens sep text := by
  obtain ⟨front, back, hfront, hback, htext⟩ := exists_eq_append_trim text
  conv_rhs => rw [htext]
  rw [tokens_append_space hsep hback, tokens_space_append hsep hfront]

end Separator

/-- The code of a lowered character. -/
theorem asciiLower_toNat (c : Char) :
    (asciiLower c).toNat = if 65 ≤ c.toNat ∧ c.toNat ≤ 90 then c.toNat + 32 else c.toNat := by
  have hupper : ('A' ≤ c ∧ c ≤ 'Z') ↔ (65 ≤ c.toNat ∧ c.toNat ≤ 90) := Iff.rfl
  rw [asciiLower]
  by_cases h : 65 ≤ c.toNat ∧ c.toNat ≤ 90
  · have hvalid : (c.toNat + 32).isValidChar := Or.inl (by omega)
    rw [if_pos (hupper.mpr h), if_pos h, Char.ofNat, dif_pos hvalid]
    rfl
  · rw [if_neg (mt hupper.mp h), if_neg h]

/-- Lowering twice is lowering once. -/
theorem asciiLower_asciiLower (c : Char) : asciiLower (asciiLower c) = asciiLower c := by
  apply Char.toNat_inj.mp
  have hcode := asciiLower_toNat c
  rw [asciiLower_toNat (asciiLower c)]
  split at hcode <;> split <;> omega

/-- Lowering yields a character before the letters only from that character. -/
theorem asciiLower_eq_iff {sep : Char} (h : sep.toNat < 65) (c : Char) : asciiLower c = sep ↔ c = sep := by
  rw [← Char.toNat_inj, ← Char.toNat_inj, asciiLower_toNat]
  split <;> omega

/-- Lowering keeps white space and makes none. -/
theorem isWhitespace_asciiLower : isWhitespace ∘ asciiLower = isWhitespace := by
  funext c
  have hcode := asciiLower_toNat c
  apply Bool.eq_iff_iff.mpr
  simp only [Function.comp_apply, isWhitespace, Bool.or_eq_true, Bool.and_eq_true, decide_eq_true_eq]
  split at hcode <;> omega

/-- Trimming commutes with lowering. -/
theorem trim_map_asciiLower (text : List Char) :
    trim (text.map asciiLower) = (trim text).map asciiLower := by
  rw [trim, List.dropWhile_map, isWhitespace_asciiLower, List.rdropWhile, ← List.map_reverse,
    List.dropWhile_map, isWhitespace_asciiLower, ← List.map_reverse, ← List.rdropWhile, ← trim]

/-- Splitting at the first separator commutes with lowering. -/
theorem splitOnce_map_asciiLower {sep : Char} (hsep : sep.toNat < 65) (text : List Char) :
    splitOnce sep (text.map asciiLower) =
      (splitOnce sep text).map (Prod.map (List.map asciiLower) (List.map asciiLower)) := by
  induction text with
  | nil => rfl
  | cons head rest ih =>
    rw [List.map_cons, splitOnce, splitOnce]
    by_cases hhead : head = sep
    · rw [if_pos ((asciiLower_eq_iff hsep head).mpr hhead), if_pos hhead]
      rfl
    · rw [if_neg (mt (asciiLower_eq_iff hsep head).mp hhead), if_neg hhead, ih, Option.map_map,
        Option.map_map]
      rfl

/-- Splitting at every separator commutes with lowering. -/
theorem splitOn_map_asciiLower {sep : Char} (hsep : sep.toNat < 65) (text : List Char) :
    (text.map asciiLower).splitOn sep = (text.splitOn sep).map (List.map asciiLower) := by
  induction text with
  | nil => simp
  | cons head rest ih =>
    rw [List.map_cons, List.splitOn_cons_eq_if_modifyHead, List.splitOn_cons_eq_if_modifyHead, ih]
    by_cases hhead : head = sep
    · have hlower : asciiLower head = sep := (asciiLower_eq_iff hsep head).mpr hhead
      rw [if_pos (beq_iff_eq.mpr hlower), if_pos (beq_iff_eq.mpr hhead), List.map_cons, List.map_nil]
    · have hlower : asciiLower head ≠ sep := mt (asciiLower_eq_iff hsep head).mp hhead
      cases hparts : rest.splitOn sep <;> simp [hhead, hlower]

/-- The tokens of a lowered text are the lowered tokens. -/
theorem tokens_map_asciiLower {sep : Char} (hsep : sep.toNat < 65) (text : List Char) :
    tokens sep (text.map asciiLower) = (tokens sep text).map (List.map asciiLower) := by
  rw [tokens, splitOn_map_asciiLower hsep, tokens, List.map_map, List.map_map]
  apply List.map_congr_left
  intro part _
  exact trim_map_asciiLower part

/-- A comparison that ignores case does not see lowering. -/
theorem eqIgnoreAsciiCase_map_asciiLower (left right : List Char) :
    eqIgnoreAsciiCase (left.map asciiLower) right = eqIgnoreAsciiCase left right := by
  have hlower : asciiLower ∘ asciiLower = asciiLower := funext asciiLower_asciiLower
  rw [eqIgnoreAsciiCase, eqIgnoreAsciiCase, List.map_map, hlower]

/-- A field that some items set holds in the end what the last of these set. -/
theorem foldl_eq_getLast {S A B : Type*} {step : S → A → S} {field : S → B} {sets : A → Option B}
    (hstep : ∀ s item, field (step s item) = (sets item).getD (field s)) (items : List A) (s : S) :
    field (items.foldl step s) = (items.filterMap sets).getLast?.getD (field s) := by
  induction items generalizing s with
  | nil => rfl
  | cons item rest ih =>
    rw [List.foldl_cons, ih, hstep]
    cases hset : sets item with
    | none => rw [List.filterMap_cons_none hset, Option.getD_none]
    | some value =>
      rw [List.filterMap_cons_some hset, List.getLast?_cons, Option.getD_some, Option.getD_some]

/-- Two lists whose items stand for the same have the same of it. -/
theorem filterMap_eq_of_forall₂ {A B : Type*} {r : A → A → Prop} {f : A → Option B} {items items' : List A}
    (h : List.Forall₂ r items items') (hr : ∀ item item', r item item' → f item = f item') :
    items.filterMap f = items'.filterMap f := by
  induction h with
  | nil => rfl
  | cons hitem _ ih => rw [List.filterMap_cons, List.filterMap_cons, hr _ _ hitem, ih]

end Common
