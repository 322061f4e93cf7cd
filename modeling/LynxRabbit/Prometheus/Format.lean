/-
# Prometheus text

The text format in which a process exposes its metrics.  A family without labels has a
name, a help text, a type and one value, and takes three lines:

    # HELP name text
    # TYPE name type
    name value

`render` writes a list of families with a blank line between two of them, and `read`
reads a text line by line, each line by the blanks in it.  `read_render` says that the
lines are read as they were meant, when names, types and values are single words and a
help text is a single line.  What a reader relies on then holds of every list of
families: each sample comes right behind the `HELP` and the `TYPE` line of its name
(`described_meant`), and no line is repeated when no name is (`nodup_label_meant`).
-/

import Mathlib.Data.Int.Notation
import Mathlib.Data.List.Nodup

namespace LynxRabbit
namespace Prometheus

/-- The parts of a text between the separators. -/
def split (sep : Char) (text : String) : List String :=
  (text.toList.splitOn sep).map String.ofList

/-- A metric family with one sample and no labels. -/
structure Family where
  name : String
  help : String
  kind : String
  value : String
deriving DecidableEq, Repr

/-- The lines of a family. -/
def Family.lines (f : Family) : List String :=
  ["# HELP " ++ f.name ++ " " ++ f.help, "# TYPE " ++ f.name ++ " " ++ f.kind,
    f.name ++ " " ++ f.value]

/-- The lines of several families, a blank line between two of them. -/
def lines (fs : List Family) : List String := [""].intercalate (fs.map Family.lines)

/-- The text of several families. -/
def render (fs : List Family) : String := "\n".intercalate (lines fs)

/-- A line, as it is read. -/
inductive Line
  | help (name doc : String)
  | type (name kind : String)
  | sample (name value : String)
  | blank
  | other (words : List String)
deriving DecidableEq, Repr

/-- One line, by its words. -/
def readLine (line : String) : Line :=
  match split ' ' line with
  | "#" :: "HELP" :: name :: doc => .help name (" ".intercalate doc)
  | ["#", "TYPE", name, kind] => .type name kind
  | [name, value] => .sample name value
  | [""] => .blank
  | words => .other words

/-- A text, line by line. -/
def read (text : String) : List Line := (split '\n' text).map readLine

/-- The lines of a family, as they are meant. -/
def Family.meant (f : Family) : List Line :=
  [.help f.name f.help, .type f.name f.kind, .sample f.name f.value]

/-- A single word: no blank and no newline in it. -/
def OneWord (text : String) : Prop := ' ' ∉ text.toList ∧ '\n' ∉ text.toList

/-- Names, types and values are single words, and the help text is a single line. -/
structure Family.WellFormed (f : Family) : Prop where
  name : OneWord f.name
  help : '\n' ∉ f.help.toList
  kind : OneWord f.kind
  value : OneWord f.value

/-! ### Words -/

theorem OneWord.append {a b : String} (ha : OneWord a) (hb : OneWord b) : OneWord (a ++ b) := by
  unfold OneWord at *
  simp [ha, hb]

theorem oneWord_ofList {l : List Char} (h : ' ' ∉ l ∧ '\n' ∉ l) : OneWord (String.ofList l) := by
  rwa [OneWord, String.toList_ofList]

theorem oneWord_of_digits {l : List Char} (h : ∀ c ∈ l, c.isDigit = true) :
    OneWord (String.ofList l) :=
  oneWord_ofList ⟨fun hc => absurd (h _ hc) (by decide), fun hc => absurd (h _ hc) (by decide)⟩

theorem oneWord_repr (n : ℕ) : OneWord n.repr := by
  rw [Nat.repr_eq_ofList_toDigits]
  exact oneWord_of_digits fun c => Nat.isDigit_of_mem_toDigits (by decide) (by decide)

theorem oneWord_int (n : ℤ) : OneWord (toString n) := by
  rw [Int.toString_eq_repr, Int.repr_eq_if]
  split_ifs
  · exact oneWord_repr _
  · exact OneWord.append (oneWord_ofList (by decide)) (oneWord_repr _)

/-- A family whose fixed texts are given by their characters, as those of a literal are. -/
theorem Family.wellFormed_ofList {name help kind : List Char} {value : String}
    (h : (' ' ∉ name ∧ '\n' ∉ name) ∧ '\n' ∉ help ∧ ' ' ∉ kind ∧ '\n' ∉ kind)
    (hvalue : OneWord value) :
    Family.WellFormed ⟨String.ofList name, String.ofList help, String.ofList kind, value⟩ where
  name := oneWord_ofList h.1
  help := by
    rw [String.toList_ofList]
    exact h.2.1
  kind := oneWord_ofList h.2.2
  value := hvalue

/-! ### Lines -/

theorem lines_cons_cons (f g : Family) (fs : List Family) :
    lines (f :: g :: fs) = f.lines ++ "" :: lines (g :: fs) := by
  simp only [lines, List.map_cons, List.intercalate_cons_cons, List.append_assoc,
    List.singleton_append]

theorem eq_lines_singleton {f : Family} {ls : List String} (hf : f.lines = ls) :
    ls = lines [f] := by
  rw [lines, List.map_singleton, List.intercalate_singleton, hf]

/-- Lines one below the other, with the first family in front. -/
theorem eq_lines_cons {f g : Family} {fs : List Family} {a b c : String} {rest : List String}
    (hf : f.lines = [a, b, c]) (hrest : rest = lines (g :: fs)) :
    a :: b :: c :: "" :: rest = lines (f :: g :: fs) := by
  rw [lines_cons_cons, hf, hrest]
  rfl

/-- The three lines of a family whose fixed texts are given by their characters. -/
theorem Family.lines_ofList {name help kind : List Char} {value : String} :
    Family.lines ⟨String.ofList name, String.ofList help, String.ofList kind, value⟩ =
      [String.ofList ("# HELP ".toList ++ (name ++ ' ' :: help)),
        String.ofList ("# TYPE ".toList ++ (name ++ ' ' :: kind)),
        String.ofList (name ++ [' ']) ++ value] := by
  have hline : ∀ (mark : String) (a b : List Char), String.ofList (mark.toList ++ (a ++ ' ' :: b)) =
      mark ++ String.ofList a ++ " " ++ String.ofList b := by
    intro mark a b
    apply String.toList_injective
    simp
  have hsample : String.ofList (name ++ [' ']) = String.ofList name ++ " " := by
    apply String.toList_injective
    simp
  rw [hline, hline, hsample, Family.lines]

/-! ### Splitting -/

theorem split_eq_singleton {sep : Char} {text : String} (h : sep ∉ text.toList) :
    split sep text = [text] := by
  rw [split, List.splitOn_eq_singleton h, List.map_singleton, String.ofList_toList]

/-- The first part, up to the first separator. -/
theorem split_append {sep : Char} {a : String} (h : sep ∉ a.toList) (s b : String)
    (hs : s.toList = [sep]) : split sep (a ++ s ++ b) = a :: split sep b := by
  rw [split, String.append_assoc, String.toList_append, String.toList_append, hs,
    List.singleton_append, List.splitOn_append_cons_self_of_not_mem h, List.map_cons,
    String.ofList_toList, split]

/-- Parts that were put together come apart again. -/
theorem split_intercalate {sep : Char} {s : String} (hs : s.toList = [sep]) {parts : List String}
    (h : ∀ part ∈ parts, sep ∉ part.toList) (hne : parts ≠ []) :
    split sep (s.intercalate parts) = parts := by
  have hparts : ∀ l ∈ parts.map String.toList, sep ∉ l := by
    intro l hl
    obtain ⟨part, hpart, rfl⟩ := List.mem_map.1 hl
    exact h part hpart
  have hnonempty : parts.map String.toList ≠ [] := by simpa using hne
  rw [split, String.toList_intercalate, hs, List.splitOn_intercalate sep hparts hnonempty,
    List.map_map]
  simp

/-- And what came apart is put together again. -/
theorem intercalate_split {sep : Char} {s : String} (hs : s.toList = [sep]) (text : String) :
    s.intercalate (split sep text) = text := by
  apply String.toList_injective
  rw [String.toList_intercalate, hs, split, List.map_map]
  have hid : String.toList ∘ String.ofList = id := by
    funext l
    exact String.toList_ofList
  rw [hid, List.map_id, List.intercalate_splitOn]

/-! ### Reading what was written -/

theorem readLine_help {f : Family} (h : f.WellFormed) :
    readLine ("# HELP " ++ f.name ++ " " ++ f.help) = .help f.name f.help := by
  have hwords : "# HELP " ++ f.name ++ " " ++ f.help =
      "#" ++ " " ++ ("HELP" ++ " " ++ (f.name ++ " " ++ f.help)) := by
    apply String.toList_injective
    simp
  rw [readLine, hwords, split_append (by decide) _ _ rfl, split_append (by decide) _ _ rfl,
    split_append h.name.1 _ _ rfl]
  exact congrArg (Line.help f.name) (intercalate_split rfl f.help)

theorem readLine_type {f : Family} (h : f.WellFormed) :
    readLine ("# TYPE " ++ f.name ++ " " ++ f.kind) = .type f.name f.kind := by
  have hwords : "# TYPE " ++ f.name ++ " " ++ f.kind =
      "#" ++ " " ++ ("TYPE" ++ " " ++ (f.name ++ " " ++ f.kind)) := by
    apply String.toList_injective
    simp
  rw [readLine, hwords, split_append (by decide) _ _ rfl, split_append (by decide) _ _ rfl,
    split_append h.name.1 _ _ rfl, split_eq_singleton h.kind.1]
  rfl

theorem readLine_sample {f : Family} (h : f.WellFormed) :
    readLine (f.name ++ " " ++ f.value) = .sample f.name f.value := by
  rw [readLine, split_append h.name.1 _ _ rfl, split_eq_singleton h.value.1]
  split <;> simp_all

theorem Family.map_readLine {f : Family} (h : f.WellFormed) : f.lines.map readLine = f.meant := by
  rw [Family.lines, List.map_cons, List.map_cons, List.map_singleton, readLine_help h,
    readLine_type h, readLine_sample h, Family.meant]

theorem Family.newline_notMem {f : Family} (h : f.WellFormed) :
    ∀ line ∈ f.lines, '\n' ∉ line.toList := by
  intro line hline
  have hname := h.name.2
  have hhelp := h.help
  have hkind := h.kind.2
  have hvalue := h.value.2
  simp only [Family.lines, List.mem_cons, List.not_mem_nil, or_false] at hline
  rcases hline with rfl | rfl | rfl <;> simp_all

/-- The lines of several families, as they are meant. -/
def meant (fs : List Family) : List Line := [Line.blank].intercalate (fs.map Family.meant)

theorem meant_cons_cons (f g : Family) (fs : List Family) :
    meant (f :: g :: fs) = f.meant ++ .blank :: meant (g :: fs) := by
  simp only [meant, List.map_cons, List.intercalate_cons_cons, List.append_assoc,
    List.singleton_append]

theorem map_readLine_lines {fs : List Family} (h : ∀ f ∈ fs, f.WellFormed) :
    (lines fs).map readLine = meant fs := by
  induction fs with
  | nil => rfl
  | cons f fs ih =>
      obtain ⟨hf, hfs⟩ := List.forall_mem_cons.1 h
      cases fs with
      | nil => simpa [lines, meant] using Family.map_readLine hf
      | cons g fs =>
          rw [lines_cons_cons, meant_cons_cons, ← ih hfs, List.map_append, List.map_cons,
            Family.map_readLine hf]
          rfl

theorem newline_notMem_lines {fs : List Family} (h : ∀ f ∈ fs, f.WellFormed) :
    ∀ line ∈ lines fs, '\n' ∉ line.toList := by
  induction fs with
  | nil => intro line hline; cases hline
  | cons f fs ih =>
      obtain ⟨hf, hfs⟩ := List.forall_mem_cons.1 h
      cases fs with
      | nil => simpa [lines] using Family.newline_notMem hf
      | cons g fs =>
          rw [lines_cons_cons]
          refine List.forall_mem_append.2 ⟨Family.newline_notMem hf, ?_⟩
          exact List.forall_mem_cons.2 ⟨by decide, ih hfs⟩

/-- **What was rendered is read as it was meant.** -/
theorem read_render {fs : List Family} (h : ∀ f ∈ fs, f.WellFormed) (hne : fs ≠ []) :
    read (render fs) = meant fs := by
  have hlines : lines fs ≠ [] := by
    obtain ⟨f, fs, rfl⟩ := List.exists_cons_of_ne_nil hne
    cases fs <;> simp [lines, List.intercalate_cons_cons, Family.lines]
  rw [read, render, split_intercalate rfl (newline_notMem_lines h) hlines, map_readLine_lines h]

/-! ### What a reader relies on -/

/-- Every sample comes right behind the `HELP` and the `TYPE` line of its name. -/
def Described (ls : List Line) : Prop :=
  ∀ before name value after, ls = before ++ .sample name value :: after →
    ∃ front doc kind, before = front ++ [.help name doc, .type name kind]

/-- What a line says, and of which name: no two lines of a text should have it in common. -/
inductive Label
  | help (name : String)
  | type (name : String)
  | sample (name : String)
deriving DecidableEq, Repr

def Line.label? : Line → Option Label
  | .help name _ => some (.help name)
  | .type name _ => some (.type name)
  | .sample name _ => some (.sample name)
  | _ => none

theorem described_nil : Described [] := by
  intro before name value after h
  exact absurd h.symm (List.append_ne_nil_of_right_ne_nil _ (List.cons_ne_nil _ _))

theorem Described.blank {ls : List Line} (h : Described ls) : Described (.blank :: ls) := by
  intro before name value after hls
  cases before with
  | nil => cases hls
  | cons l before =>
      obtain ⟨front, doc, kind, rfl⟩ := h before name value after (List.cons.inj hls).2
      exact ⟨l :: front, doc, kind, rfl⟩

theorem Described.family {ls : List Line} (h : Described ls) (f : Family) :
    Described (f.meant ++ ls) := by
  intro before name value after hls
  match before with
  | [] => cases hls
  | [_] => cases hls
  | [_, _] =>
      cases hls
      exact ⟨[], f.help, f.kind, rfl⟩
  | a :: b :: c :: before =>
      simp only [Family.meant, List.cons_append, List.nil_append, List.cons.injEq] at hls
      obtain ⟨front, doc, kind, rfl⟩ := h before name value after hls.2.2.2
      exact ⟨a :: b :: c :: front, doc, kind, rfl⟩

/-- **Every sample is described**, whatever the families. -/
theorem described_meant (fs : List Family) : Described (meant fs) := by
  induction fs with
  | nil => exact described_nil
  | cons f fs ih =>
      cases fs with
      | nil => simpa [meant] using described_nil.family f
      | cons g fs =>
          rw [meant_cons_cons]
          exact ih.blank.family f

/-- The labels of the lines, family by family. -/
theorem filterMap_label_meant (fs : List Family) :
    (meant fs).filterMap Line.label? =
      fs.flatMap fun f => [.help f.name, .type f.name, .sample f.name] := by
  induction fs with
  | nil => rfl
  | cons f fs ih =>
      cases fs with
      | nil => rfl
      | cons g fs =>
          rw [meant_cons_cons, List.filterMap_append, List.filterMap_cons_none rfl, ih]
          rfl

/-- **No line is repeated when no name is.** -/
theorem nodup_label_meant {fs : List Family} (h : (fs.map Family.name).Nodup) :
    ((meant fs).filterMap Line.label?).Nodup := by
  rw [filterMap_label_meant, List.nodup_flatMap]
  refine ⟨fun f _ => by simp, ?_⟩
  refine (List.pairwise_map.1 h).imp fun {f g} hne => ?_
  simp [Function.onFun, List.Disjoint, hne]

/-- The lines that are not blank are those of the families. -/
theorem mem_meant {fs : List Family} {l : Line} (hl : l ≠ .blank) :
    l ∈ meant fs ↔ ∃ f ∈ fs, l ∈ f.meant := by
  induction fs with
  | nil => simp [meant]
  | cons f fs ih =>
      cases fs with
      | nil => simp [meant]
      | cons g fs =>
          rw [meant_cons_cons, List.mem_append, List.mem_cons, ih, List.exists_mem_cons_iff]
          simp [hl]

theorem sample_mem_meant {fs : List Family} {name value : String} :
    .sample name value ∈ meant fs ↔ ∃ f ∈ fs, f.name = name ∧ f.value = value := by
  rw [mem_meant (by simp)]
  simp [Family.meant, eq_comm]

/-- Where no name is repeated, the sample of a name has the value of its family. -/
theorem sample_mem_meant_iff {fs : List Family} (hn : (fs.map Family.name).Nodup) {f : Family}
    (hf : f ∈ fs) {value : String} : .sample f.name value ∈ meant fs ↔ value = f.value := by
  rw [sample_mem_meant]
  constructor
  · rintro ⟨g, hg, hname, rfl⟩
    rw [List.inj_on_of_nodup_map hn hg hf hname]
  · rintro rfl
    exact ⟨f, hf, rfl, rfl⟩

/-- Nothing is misread. -/
theorem other_notMem_meant (fs : List Family) (words : List String) :
    .other words ∉ meant fs := by
  rw [mem_meant (by simp)]
  simp [Family.meant]

end Prometheus
end LynxRabbit
