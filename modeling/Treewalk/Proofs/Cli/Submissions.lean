import Mathlib
import Treewalk.Cli.Run
/-!
# What a session on standard input submits

A session that reads all of standard input cuts it into lines, each with its line break, the
last one without. It submits them in chunks: a chunk is the shortest run of lines, from where
the previous chunk ended, whose text does not wait for more input, or that runs to the last
line. A last chunk that is only white space is not submitted.

`Repl.feed` keeps the pending lines of the current chunk in its buffer (`feed_pending`): each
line either completes the chunk, which is then run or reported, or joins the buffer. So the
session does exactly what running the chunks one after another does, and the chunks spell the
input: no line is lost or submitted twice (`session_runs_submissions`).
-/
namespace Treewalk.Cli

/-! ### Lines -/

def linePieces (cs : List Char) : List (List Char) := (cutLines cs).1 :: (cutLines cs).2

theorem linePieces_newline (cs : List Char) :
    linePieces ('\n' :: cs) = ['\n'] :: linePieces cs := by
  simp [linePieces, cutLines]

theorem linePieces_other {c : Char} (hc : c ≠ '\n') (cs : List Char) :
    linePieces (c :: cs) = (c :: (cutLines cs).1) :: (cutLines cs).2 := by
  simp [linePieces, cutLines, hc]

theorem flatten_linePieces (cs : List Char) : (linePieces cs).flatten = cs := by
  induction cs with
  | nil => rfl
  | cons c cs ih =>
    by_cases hc : c = '\n'
    · subst hc
      rw [linePieces_newline, List.flatten_cons, ih]
      rfl
    · rw [linePieces_other hc]
      simpa [linePieces] using ih

theorem linePieces_shape (cs : List Char) :
    (∀ l ∈ (linePieces cs).dropLast, ∃ body, l = body ++ ['\n'] ∧ '\n' ∉ body) ∧
      '\n' ∉ (linePieces cs).getLast?.getD [] := by
  induction cs with
  | nil => simp [linePieces, cutLines]
  | cons c cs ih =>
    obtain ⟨hinit, hlast⟩ := ih
    by_cases hc : c = '\n'
    · -- a line break alone is a whole line, in front of the pieces of the rest
      subst hc
      have hne : linePieces cs ≠ [] := List.cons_ne_nil _ _
      rw [linePieces_newline, List.dropLast_cons_of_ne_nil hne]
      unfold linePieces at hlast ⊢
      rw [List.getLast?_cons_cons]
      refine ⟨?_, hlast⟩
      intro l hl
      rcases List.mem_cons.mp hl with rfl | hl
      · exact ⟨[], rfl, by simp⟩
      · exact hinit l hl
    · -- any other character joins the first piece of the rest
      rw [linePieces_other hc]
      unfold linePieces at hinit hlast
      cases hmore : (cutLines cs).2 with
      | nil =>
        rw [hmore] at hlast
        simp only [List.getLast?_singleton, Option.getD_some] at hlast
        simp [hlast, Ne.symm hc]
      | cons q more =>
        rw [hmore] at hinit hlast
        rw [List.dropLast_cons_of_ne_nil (List.cons_ne_nil _ _)] at hinit ⊢
        rw [List.getLast?_cons_cons] at hlast ⊢
        refine ⟨?_, hlast⟩
        obtain ⟨body, hbody, hnl⟩ := hinit _ List.mem_cons_self
        intro l hl
        rcases List.mem_cons.mp hl with rfl | hl
        · exact ⟨c :: body, by rw [hbody]; rfl, by simp [hnl, Ne.symm hc]⟩
        · exact hinit l (List.mem_cons_of_mem _ hl)

/-- `lines` and `last` cut `text` into lines: each of `lines` ends with its only line break,
`last` has none, and together they spell `text`. -/
def LineSplit (text : String) (lines : List String) (last : String) : Prop :=
  String.join lines ++ last = text ∧
    (∀ l ∈ lines, ∃ body, l.toList = body ++ ['\n'] ∧ '\n' ∉ body) ∧ '\n' ∉ last.toList

theorem splitLines_eq (text : String) :
    splitLines text = ((linePieces text.toList).dropLast.map String.ofList,
      String.ofList ((linePieces text.toList).getLast?.getD [])) := rfl

theorem splitLines_lineSplit (text : String) :
    LineSplit text (splitLines text).1 (splitLines text).2 := by
  obtain ⟨hinit, hlast⟩ := linePieces_shape text.toList
  have hne : linePieces text.toList ≠ [] := List.cons_ne_nil _ _
  rw [splitLines_eq]
  refine ⟨?_, ?_, by simpa using hlast⟩
  · -- the pieces, put back together, are the text
    apply String.ext
    rw [String.toList_append, String.toList_join, String.toList_ofList,
      List.getLast?_eq_some_getLast hne, Option.getD_some]
    simp only [List.flatMap_map, String.toList_ofList, List.flatMap_id']
    rw [← List.flatten_concat, List.dropLast_concat_getLast hne, flatten_linePieces]
  · intro l hl
    obtain ⟨piece, hp, rfl⟩ := List.mem_map.mp hl
    simpa using hinit piece hp

def textLines (text : String) : List String := (splitLines text).1 ++ [(splitLines text).2]

theorem join_textLines (text : String) : String.join (textLines text) = text := by
  rw [textLines, String.join_append, String.join_cons, String.join_nil, String.append_empty]
  exact (splitLines_lineSplit text).1

/-! ### Chunks -/

/-- A text that stops where more input could still complete it: it does not parse, and the
failure is marked incomplete. -/
def awaitsMore (src : String) : Bool :=
  match Parser.parse src with
  | .error e => e.incomplete
  | .ok _ => false

/-- How many of the lines `ls` the first chunk takes: the fewest, at least one, whose text does
not await more input, or else all of them. -/
def chunkLength (ls : List String) : Nat :=
  ((List.range ls.length).find? (fun n => !awaitsMore (String.join (ls.take (n + 1))))).elim
    ls.length (· + 1)

theorem chunkLength_pos_le {ls : List String} (h : ls ≠ []) :
    0 < chunkLength ls ∧ chunkLength ls ≤ ls.length := by
  unfold chunkLength
  cases hf : (List.range ls.length).find? _ with
  | none => exact ⟨List.length_pos_of_ne_nil h, le_rfl⟩
  | some n =>
    have hn := List.mem_range.mp (List.mem_of_find?_eq_some hf)
    exact ⟨Nat.succ_pos n, hn⟩

theorem chunkLength_eq {ls : List String} {n : Nat} (hn : 0 < n) (hle : n ≤ ls.length)
    (hwait : ∀ k, 0 < k → k < n → awaitsMore (String.join (ls.take k)) = true)
    (hstop : awaitsMore (String.join (ls.take n)) = false ∨ n = ls.length) :
    chunkLength ls = n := by
  unfold chunkLength
  rcases hstop with hstop | rfl
  · have hfind : (List.range ls.length).find?
        (fun n => !awaitsMore (String.join (ls.take (n + 1)))) = some (n - 1) := by
      rw [List.find?_range_eq_some]
      refine ⟨by simp [Nat.sub_add_cancel hn, hstop], List.mem_range.mpr (by omega), ?_⟩
      intro j hj
      simp [hwait (j + 1) (by omega) (by omega)]
    rw [hfind]
    simp only [Option.elim_some]
    omega
  · cases hf : (List.range ls.length).find? _ with
    | none => rfl
    | some i =>
      -- a shorter run that does not await more would contradict `hwait`
      obtain ⟨hpi, hi, -⟩ := List.find?_range_eq_some.mp hf
      have hi := List.mem_range.mp hi
      simp only [Option.elim_some]
      by_contra hne
      have := hwait (i + 1) (by omega) (by omega)
      simp [this] at hpi

/-- The chunks of a list of lines, in order: the first chunk, then the chunks of the lines after
it. -/
def chunks : List String → List String
  | [] => []
  | l :: ls =>
    String.join ((l :: ls).take (chunkLength (l :: ls))) ::
      chunks ((l :: ls).drop (chunkLength (l :: ls)))
termination_by ls => ls.length
decreasing_by
  have hpos := (chunkLength_pos_le (List.cons_ne_nil l ls)).1
  rw [List.length_drop, List.length_cons]
  omega

theorem chunks_nil : chunks [] = [] := by
  rw [chunks]

theorem chunks_of_ne_nil {ls : List String} (h : ls ≠ []) :
    chunks ls = String.join (ls.take (chunkLength ls)) :: chunks (ls.drop (chunkLength ls)) := by
  obtain ⟨l, ls, rfl⟩ := List.exists_cons_of_ne_nil h
  rw [chunks]

theorem chunks_ne_nil {ls : List String} (h : ls ≠ []) : chunks ls ≠ [] := by
  rw [chunks_of_ne_nil h]
  exact List.cons_ne_nil _ _

theorem join_chunks (ls : List String) : String.join (chunks ls) = String.join ls := by
  fun_induction chunks ls with
  | case1 => rfl
  | case2 l ls ih =>
    rw [String.join_cons, ih, ← String.join_append, List.take_append_drop]

/-- Lines after `pre`, whose shorter runs all await more input: the chunk ends at the next line
when the text up to it does not await more, or when it is the last line. -/
theorem chunks_after_pending {pre : List String} {l : String} {rest : List String}
    (hpre : ∀ k, 0 < k → k ≤ pre.length → awaitsMore (String.join (pre.take k)) = true)
    (hl : awaitsMore (String.join pre ++ l) = false ∨ rest = []) :
    chunks (pre ++ l :: rest) = (String.join pre ++ l) :: chunks rest := by
  have hlen : chunkLength (pre ++ l :: rest) = pre.length + 1 := by
    apply chunkLength_eq (Nat.succ_pos _) (by simp)
    · intro k hk hlt
      rw [List.take_append_of_le_length (by omega)]
      exact hpre k hk (by omega)
    · rcases hl with hl | rfl
      · left
        rw [List.take_length_add_append 1]
        simpa [String.join_append] using hl
      · simp
  rw [chunks_of_ne_nil (by simp), hlen]
  have htake : (pre ++ l :: rest).take (pre.length + 1) = pre ++ [l] := by
    rw [List.take_length_add_append 1]
    rfl
  have hdrop : (pre ++ l :: rest).drop (pre.length + 1) = rest := by
    rw [List.drop_length_add_append 1]
    rfl
  rw [htake, hdrop, String.join_append, String.join_cons, String.join_nil, String.append_empty]

def dropBlankLast : List String → List String
  | [] => []
  | [c] => if c.all isSpace then [] else [c]
  | c :: d :: cs => c :: dropBlankLast (d :: cs)

theorem dropBlankLast_cons (c : String) {cs : List String} (h : cs ≠ []) :
    dropBlankLast (c :: cs) = c :: dropBlankLast cs := by
  obtain ⟨d, cs, rfl⟩ := List.exists_cons_of_ne_nil h
  rfl

theorem dropBlankLast_cases (cs : List String) :
    dropBlankLast cs = cs ∨ ∃ c, cs = dropBlankLast cs ++ [c] ∧ c.all isSpace = true := by
  induction cs with
  | nil => exact .inl rfl
  | cons c cs ih =>
    cases cs with
    | nil =>
      by_cases hb : c.all isSpace = true
      · exact .inr ⟨c, by simp [dropBlankLast, hb], hb⟩
      · exact .inl (by simp [dropBlankLast, hb])
    | cons d cs =>
      rw [dropBlankLast_cons c (List.cons_ne_nil d cs)]
      rcases ih with ih | ⟨e, he, hb⟩
      · exact .inl (by rw [ih])
      · exact .inr ⟨e, by rw [List.cons_append, ← he], hb⟩

/-- What a session on `text` submits: its chunks, without a last one of white space. -/
def submissions (text : String) : List String := dropBlankLast (chunks (textLines text))

/-! ### The session's loop -/

/-- One chunk, submitted as the whole of the input that is left: read, then its failure
reported or its program run. -/
def Repl.process (rep : Reporter) (echo : Bool) (r : Repl) (c : String) : Repl :=
  { r with buffer := c }.submit rep echo true

section Submit

variable {rep : Reporter} {echo : Bool} {r : Repl}

theorem Repl.submit_of_awaitsMore (r : Repl) (h : awaitsMore r.buffer = true) :
    r.submit rep echo false = r := by
  unfold awaitsMore at h
  unfold Repl.submit
  cases hp : Parser.parse r.buffer with
  | error e =>
    rw [hp] at h
    simp [h]
  | ok prog =>
    rw [hp] at h
    cases h

theorem Repl.submit_of_complete (r : Repl) (h : awaitsMore r.buffer = false) :
    r.submit rep echo false = r.submit rep echo true := by
  unfold awaitsMore at h
  unfold Repl.submit
  cases hp : Parser.parse r.buffer with
  | error e =>
    rw [hp] at h
    simp [h]
  | ok prog => rfl

theorem Repl.buffer_submit_final : (r.submit rep echo true).buffer = "" := by
  unfold Repl.submit
  cases Parser.parse r.buffer with
  | error e => simp
  | ok prog =>
    dsimp only
    split <;> rfl

theorem Repl.clear_of_buffer_empty {r : Repl} (h : r.buffer = "") :
    { r with buffer := "" } = r := by
  cases r
  simp_all

end Submit

/-- The loop invariant: with the lines `pre` of an unfinished chunk in its buffer, the session
goes on as the chunks of `pre` and the lines still to come, up to what it leaves in its buffer. -/
theorem feed_pending (rep : Reporter) (echo : Bool) (last : String) (ls : List String) :
    ∀ (pre : List String) (r : Repl), r.buffer = String.join pre →
      (∀ k, 0 < k → k ≤ pre.length → awaitsMore (String.join (pre.take k)) = true) →
      { Repl.feed rep echo r ls last with buffer := "" } =
        (dropBlankLast (chunks (pre ++ ls ++ [last]))).foldl (Repl.process rep echo)
          { r with buffer := "" } := by
  induction ls with
  | nil =>
    intro pre r hbuf hpre
    rw [List.append_nil, chunks_after_pending hpre (.inr rfl), chunks_nil, Repl.feed]
    dsimp only
    rw [hbuf]
    by_cases hb : (String.join pre ++ last).all isSpace = true
    · rw [if_pos hb]
      simp only [dropBlankLast, hb, if_true, List.foldl_nil]
    · rw [if_neg hb]
      simp only [dropBlankLast, hb]
      exact Repl.clear_of_buffer_empty Repl.buffer_submit_final
  | cons l ls ih =>
    intro pre r hbuf hpre
    rw [Repl.feed, hbuf]
    by_cases hw : awaitsMore (String.join pre ++ l) = true
    · -- the line joins the buffer
      rw [Repl.submit_of_awaitsMore { r with buffer := String.join pre ++ l } hw]
      have h := ih (pre ++ [l]) { r with buffer := String.join pre ++ l }
        (by rw [String.join_append, String.join_cons, String.join_nil, String.append_empty]) ?_
      · simpa only [List.append_assoc, List.singleton_append, List.cons_append, List.nil_append]
          using h
      · intro k hk hle
        by_cases hkp : k ≤ pre.length
        · rw [List.take_append_of_le_length hkp]
          exact hpre k hk hkp
        · have hk' : k = pre.length + 1 := by simp at hle; omega
          subst hk'
          rw [List.take_of_length_le (by simp), String.join_append, String.join_cons,
            String.join_nil, String.append_empty]
          exact hw
    · -- the line completes the chunk, which is run or reported
      have hw : awaitsMore (String.join pre ++ l) = false := by simpa using hw
      rw [Repl.submit_of_complete { r with buffer := String.join pre ++ l } hw]
      have h := ih [] ({ r with buffer := String.join pre ++ l }.submit rep echo true)
        Repl.buffer_submit_final (fun k hk hle => absurd hle (by rw [List.length_nil]; omega))
      rw [Repl.clear_of_buffer_empty Repl.buffer_submit_final] at h
      have hc : chunks (pre ++ l :: ls ++ [last]) =
          (String.join pre ++ l) :: chunks (ls ++ [last]) := by
        rw [List.append_assoc, List.cons_append, chunks_after_pending hpre (.inl hw)]
      rw [h, hc, List.nil_append, dropBlankLast_cons _ (chunks_ne_nil (by simp))]
      rfl

/-- A session on standard input runs or reports exactly its chunks, in order, on one session,
and ends with the exit code 0. The chunks are cut from the lines of the input and spell it;
only a last chunk of white space is left out. -/
theorem session_runs_submissions (p : Plan) (w : World) (h : p.mode = .session) :
    let r := (submissions w.stdin).foldl (Repl.process p.reporter p.settings.echo)
      { session := p.session }
    p.execute w = { code := 0, stdout := r.stdout, stderr := r.stderr } ∧
      LineSplit w.stdin (splitLines w.stdin).1 (splitLines w.stdin).2 ∧
      String.join (chunks (textLines w.stdin)) = w.stdin ∧
      (submissions w.stdin = chunks (textLines w.stdin) ∨
        ∃ c, chunks (textLines w.stdin) = submissions w.stdin ++ [c] ∧ c.all isSpace = true) := by
  intro r
  have hfeed := feed_pending p.reporter p.settings.echo (splitLines w.stdin).2
    (splitLines w.stdin).1 [] { session := p.session } rfl
    (fun k hk hle => absurd hle (by rw [List.length_nil]; omega))
  rw [List.nil_append] at hfeed
  refine ⟨?_, splitLines_lineSplit w.stdin, by rw [join_chunks, join_textLines],
    dropBlankLast_cases _⟩
  have hout := congrArg Repl.stdout hfeed
  have herr := congrArg Repl.stderr hfeed
  simp only [Plan.execute, h]
  exact congr (congrArg _ hout) herr

/-- A session on a call cut after its first argument: the first line awaits more input, so the
two lines are submitted together. -/
theorem session_runs_submissions_call :
    let p : Plan := ⟨Config.Settings.defaults none, ⟨false⟩, Session.new (fun _ => 0), .session⟩
    let w : World := ⟨"lumen", none, none, fun _ => .absent, "print!(1,\n2)\n", fun _ => 0, false⟩
    p.mode = .session ∧
      let r := (submissions w.stdin).foldl (Repl.process p.reporter p.settings.echo)
        { session := p.session }
      (p.execute w = { code := 0, stdout := r.stdout, stderr := r.stderr } ∧
        LineSplit w.stdin (splitLines w.stdin).1 (splitLines w.stdin).2 ∧
        String.join (chunks (textLines w.stdin)) = w.stdin ∧
        (submissions w.stdin = chunks (textLines w.stdin) ∨
          ∃ c, chunks (textLines w.stdin) = submissions w.stdin ++ [c] ∧ c.all isSpace = true)) :=
  ⟨rfl, session_runs_submissions _ _ rfl⟩

end Treewalk.Cli
