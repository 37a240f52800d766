import DeviceLink.Proofs.Store.Contents
import Mathlib.Data.List.Pairwise

/-! What opening a directory makes of files that other programs may have put there: which files are
counted as messages, when each of them is found under the number that it is counted with, and what
is left of the directory when everything that was counted has been taken out. -/
namespace DeviceLink.Store

namespace Entry

/-- Exactly the numbered names are listed, each with the size of what it stands for. -/
theorem mem_ofDirectory {d : Directory} {e : Entry} : e ∈ ofDirectory d ↔
    ∃ name node, (name, node) ∈ d.nodes ∧ Numbered name e.number ∧ node.size = e.size := by
  rw [ofDirectory, List.mem_mergeSort, List.mem_filterMap]
  simp only [Option.map_eq_some_iff, number?_eq_some_iff]
  constructor
  · intro h
    obtain ⟨⟨name, node⟩, hmem, n, hn, rfl⟩ := h
    exact ⟨name, node, hmem, hn, rfl⟩
  · intro h
    obtain ⟨name, node, hmem, hn, hsize⟩ := h
    exact ⟨(name, node), hmem, e.number, hn, by rw [hsize]⟩

def Apart (f g : String × Node) : Prop := ∀ n, Numbered f.1 n → ¬ Numbered g.1 n

instance : Std.Symm Apart := ⟨fun _ _ h n hg hf => h n hf hg⟩

/-- No number is listed twice exactly if no two names have one number. -/
theorem nodup_numbers_iff {d : Directory} :
    ((ofDirectory d).map number).Nodup ↔ d.nodes.Pairwise Apart := by
  have hnumbers : (d.nodes.filterMap fun f =>
      (number? f.1).map fun n => (⟨n, f.2.size⟩ : Entry)).map number =
        d.nodes.filterMap fun f => number? f.1 := by
    rw [List.map_filterMap]
    simp [Function.comp_def]
  have hperm := (List.mergeSort_perm (d.nodes.filterMap fun f =>
    (number? f.1).map fun n => (⟨n, f.2.size⟩ : Entry)) le).map number
  rw [hnumbers] at hperm
  show ((List.mergeSort _ le).map number).Nodup ↔ _
  rw [hperm.nodup_iff, List.Nodup, List.pairwise_filterMap]
  simp only [number?_eq_some_iff]
  constructor
  · intro h
    exact h.imp fun hne n hf hg => hne n hf n hg rfl
  · intro h
    refine h.imp fun hne n hf m hg heq => ?_
    rw [← heq] at hg
    exact hne n hf hg

end Entry

def Node.IsFile (node : Node) : Prop := ∃ content, node = .file content

namespace Directory

variable {d : Directory}

/-- The directory after a removal, which may have failed. -/
def without (d : Directory) (name : String) : Directory := (d.remove? name).getD d

theorem nodes_without_sublist (d : Directory) (name : String) :
    (d.without name).nodes.Sublist d.nodes := by
  unfold without remove?
  split
  · exact List.filter_sublist
  · exact List.Sublist.refl _

/-- Only the file of that name is gone. -/
theorem mem_without (h : (d.nodes.map Prod.fst).Nodup) {name : String} {f : String × Node} :
    f ∈ (d.without name).nodes ↔ f ∈ d.nodes ∧ ¬ (f.1 = name ∧ f.2.IsFile) := by
  unfold without remove?
  split
  · rename_i content hfind
    have honly : f ∈ d.nodes → f.1 = name → f.2 = .file content := by
      rintro hmem rfl
      have hnode := (Ascending.find?_eq_some_iff h).mpr hmem
      exact Option.some.inj (hnode.symm.trans hfind)
    show f ∈ d.nodes.filter (fun e => decide (e.1 ≠ name)) ↔ _
    rw [List.mem_filter, decide_eq_true_eq]
    constructor
    · intro hf
      exact ⟨hf.1, fun hname => hf.2 hname.1⟩
    · intro hf
      exact ⟨hf.1, fun hname => hf.2 ⟨hname, content, honly hf.1 hname⟩⟩
  · rename_i hfile
    show f ∈ d.nodes ↔ _
    refine ⟨fun hf => ⟨hf, ?_⟩, fun hf => hf.1⟩
    intro hname
    obtain ⟨rfl, content, hcontent⟩ := hname
    have hmem : (f.1, Node.file content) ∈ d.nodes := hcontent ▸ hf
    exact hfile content ((Ascending.find?_eq_some_iff h).mpr hmem)

/-- Every file with a number has the name that is written for this number. -/
def Canonical (d : Directory) : Prop :=
  ∀ name node n, (name, node) ∈ d.nodes → Numbered name n →
    name = Entry.fileName n ∧ node.IsFile

end Directory

namespace Disk

def popTimes : Nat → Disk → Disk
  | 0, s => s
  | n + 1, s => popTimes n s.pop.value

/-- What is left of a store after as many removals as it has entries. -/
def emptied (s : Disk) : Disk := popTimes s.size s

section Removals

variable {s : Disk}

/-- One removal takes the entry that is next, and its file if it is there. -/
theorem pop_next {e : Entry} (h : s.order.next? s.entries = some e) :
    s.pop.value.directory = s.directory.without (Entry.fileName e.number) ∧
      s.pop.value.entries = s.order.rest s.entries := by
  unfold pop Directory.without
  rw [h]
  dsimp only
  cases s.directory.remove? (Entry.fileName e.number) with
  | none => exact ⟨rfl, rfl⟩
  | some d => exact ⟨rfl, rfl⟩

theorem length_pop {e : Entry} (h : s.order.next? s.entries = some e) :
    s.entries.length = s.pop.value.entries.length + 1 := by
  rw [(pop_next h).2, (Order.perm_next h).length_eq, List.length_cons]

theorem nodes_pop_sublist {e : Entry} (h : s.order.next? s.entries = some e) :
    s.pop.value.directory.nodes.Sublist s.directory.nodes := by
  rw [(pop_next h).1]
  exact Directory.nodes_without_sublist _ _

theorem exists_next {n : Nat} (h : s.entries.length = n + 1) :
    ∃ e, s.order.next? s.entries = some e := by
  apply Option.ne_none_iff_exists'.mp
  intro hnone
  rw [Order.eq_nil_of_next?_eq_none hnone] at h
  cases h

/-- As many removals as there are entries take all of them, and the files under their numbers;
nothing else goes. -/
theorem popTimes_all (h : (s.directory.nodes.map Prod.fst).Nodup) {n : Nat}
    (hn : s.entries.length = n) :
    (popTimes n s).entries = [] ∧
      (popTimes n s).directory.nodes.Sublist s.directory.nodes ∧
      ∀ f, f ∈ (popTimes n s).directory.nodes ↔ f ∈ s.directory.nodes ∧
        ∀ e ∈ s.entries, ¬ (f.1 = Entry.fileName e.number ∧ f.2.IsFile) := by
  induction n generalizing s with
  | zero =>
    have hnil : s.entries = [] := List.eq_nil_of_length_eq_zero hn
    simp [popTimes, hnil]
  | succ n ih =>
    obtain ⟨e, hnext⟩ := exists_next hn
    obtain ⟨hdirectory, hentries⟩ := pop_next hnext
    have hsublist := nodes_pop_sublist hnext
    have hlength : s.pop.value.entries.length = n := by
      have hone := length_pop hnext
      omega
    obtain ⟨hempty, hsub, hmem⟩ := ih (h.sublist (hsublist.map Prod.fst)) hlength
    refine ⟨hempty, hsub.trans hsublist, fun f => ?_⟩
    -- Whichever end is taken from, the entry that goes and the others are all that there were.
    have hall : (∀ e' ∈ s.entries, ¬ (f.1 = Entry.fileName e'.number ∧ f.2.IsFile)) ↔
        ∀ e' ∈ e :: s.order.rest s.entries,
          ¬ (f.1 = Entry.fileName e'.number ∧ f.2.IsFile) := by
      simp only [(Order.perm_next hnext).mem_iff]
    show f ∈ (popTimes n s.pop.value).directory.nodes ↔ _
    rw [hmem, hdirectory, Directory.mem_without h, hentries, and_assoc, hall, List.forall_mem_cons]

end Removals

/-- Each entry is one file of its own: the one that is read and removed for the entry, of the size
that the entry has. -/
structure Faithful (s : Disk) : Prop where
  files : ∀ e ∈ s.entries, ∃ content,
    s.directory.read? (Entry.fileName e.number) = some content ∧ content.length = e.size
  nodup : (s.entries.map Entry.number).Nodup

section Opening

variable {d : Directory} (h : (d.nodes.map Prod.fst).Nodup) (order : Order)

include h

theorem faithful_of_canonical (hd : d.Canonical) : Faithful (openAt d order).value where
  files e he := by
    obtain ⟨name, node, hmem, hnumber, hsize⟩ := Entry.mem_ofDirectory.mp he
    obtain ⟨rfl, content, rfl⟩ := hd name node e.number hmem hnumber
    exact ⟨content, (Directory.read?_eq_some_iff h).mpr hmem, hsize⟩
  nodup := by
    apply Entry.nodup_numbers_iff.mpr
    have hnames : d.nodes.Pairwise fun f g => f.1 ≠ g.1 := List.pairwise_map.mp h
    refine hnames.imp_of_mem fun hf hg hne n hfn hgn => hne ?_
    rw [(hd _ _ n hf hfn).1, (hd _ _ n hg hgn).1]

theorem canonical_of_faithful (hs : Faithful (openAt d order).value) : d.Canonical := by
  intro name node n hmem hnumber
  have hentry : (⟨n, node.size⟩ : Entry) ∈ Entry.ofDirectory d :=
    Entry.mem_ofDirectory.mpr ⟨name, node, hmem, hnumber, rfl⟩
  obtain ⟨content, hread, -⟩ := hs.files _ hentry
  have hfile : (Entry.fileName n, Node.file content) ∈ d.nodes :=
    (Directory.read?_eq_some_iff h).mp hread
  -- The name and the proper name of its number would both be listed, under one number.
  have hapart := (Entry.nodup_numbers_iff.mp hs.nodup).forall hmem hfile
  have hsame : (name, node) = (Entry.fileName n, Node.file content) := by
    by_contra hne
    exact hapart hne n hnumber (Entry.numbered_fileName hnumber.lt)
  obtain ⟨rfl, rfl⟩ := Prod.mk.inj hsame
  exact ⟨rfl, content, rfl⟩

/-- When all entries are taken out, the files under proper names are gone and everything else is
there. -/
theorem mem_emptied {f : String × Node} :
    f ∈ (openAt d order).value.emptied.directory.nodes ↔
      f ∈ d.nodes ∧ ¬ (f.2.IsFile ∧ ∃ n < limit64, f.1 = Entry.fileName n) := by
  obtain ⟨-, -, hleft⟩ := popTimes_all (s := (openAt d order).value) h rfl
  refine (hleft f).trans (and_congr_right fun hf => ?_)
  constructor
  · intro hall hfile
    obtain ⟨hfile, n, hlt, hname⟩ := hfile
    have hentry : (⟨n, f.2.size⟩ : Entry) ∈ Entry.ofDirectory d :=
      Entry.mem_ofDirectory.mpr ⟨f.1, f.2, hf, hname ▸ Entry.numbered_fileName hlt, rfl⟩
    exact hall _ hentry ⟨hname, hfile⟩
  · intro hnot e he hfile
    obtain ⟨_, _, -, hnumber, -⟩ := Entry.mem_ofDirectory.mp he
    exact hnot ⟨hfile.2, e.number, hnumber.lt, hfile.1⟩

/-- Where numbers are written properly, only names without a number are left. -/
theorem mem_emptied_of_canonical (hd : d.Canonical) {f : String × Node} :
    f ∈ (openAt d order).value.emptied.directory.nodes ↔ f ∈ d.nodes ∧ ∀ n, ¬ Numbered f.1 n := by
  rw [mem_emptied h]
  refine and_congr_right fun hf => ?_
  constructor
  · intro hnot n hnumber
    obtain ⟨hname, hfile⟩ := hd f.1 f.2 n hf hnumber
    exact hnot ⟨hfile, n, hnumber.lt, hname⟩
  · intro hnot hfile
    obtain ⟨-, n, hlt, hname⟩ := hfile
    exact hnot n (hname ▸ Entry.numbered_fileName hlt)

end Opening

/-- The file of each entry holds a message. -/
def Legible (s : Disk) : Prop :=
  ∀ e ∈ s.entries, ∃ content m,
    s.directory.read? (Entry.fileName e.number) = some content ∧
      Envelope.stored.parse content = .ok m

section Draining

variable {s : Disk}

theorem Legible.front (h : Legible s) {e : Entry} (he : s.order.next? s.entries = some e) :
    ∃ m, s.front.value = some m := by
  have hmem : e ∈ s.entries := (Order.perm_next he).mem_iff.mpr List.mem_cons_self
  obtain ⟨content, m, hread, hparse⟩ := h e hmem
  refine ⟨m, ?_⟩
  unfold Disk.front
  rw [he]
  dsimp only
  rw [hread]
  dsimp only
  rw [hparse]

/-- A removal leaves the files of the other entries as they were. -/
theorem read?_pop (h : (s.directory.nodes.map Prod.fst).Nodup) {e e' : Entry}
    (he : s.order.next? s.entries = some e) (hne : e'.number ≠ e.number) :
    s.pop.value.directory.read? (Entry.fileName e'.number) =
      s.directory.read? (Entry.fileName e'.number) := by
  have hname : Entry.fileName e'.number ≠ Entry.fileName e.number :=
    fun heq => hne (Entry.fileName_injective heq)
  have hsub := Directory.nodes_without_sublist s.directory (Entry.fileName e.number)
  apply Option.ext
  intro content
  rw [(pop_next he).1, Directory.read?_eq_some_iff (h.sublist (hsub.map Prod.fst)),
    Directory.read?_eq_some_iff h, Directory.mem_without h]
  simp [hname]

/-- Where each file holds a message, all of them are taken out. -/
theorem drainFrom_all (h : (s.directory.nodes.map Prod.fst).Nodup)
    (hnumbers : (s.entries.map Entry.number).Nodup) (hs : Legible s) {n : Nat}
    (hn : s.entries.length = n) :
    (drainFrom n s).value.1 = popTimes n s ∧ (drainFrom n s).value.2.length = n := by
  induction n generalizing s with
  | zero => exact ⟨rfl, rfl⟩
  | succ n ih =>
    obtain ⟨e, hnext⟩ := exists_next hn
    obtain ⟨m, hm⟩ := hs.front hnext
    have hperm := Order.perm_next hnext
    have hentries := (pop_next hnext).2
    have hapart := (hperm.map Entry.number).nodup_iff.mp hnumbers
    rw [List.map_cons, List.nodup_cons, ← hentries] at hapart
    -- As no other entry has its number, the removal leaves the files of the others alone.
    have hlegible : Legible s.pop.value := by
      intro e' he'
      have hne : e'.number ≠ e.number := by
        intro heq
        exact hapart.1 (heq ▸ List.mem_map_of_mem he')
      rw [read?_pop h hnext hne]
      rw [hentries] at he'
      exact hs e' (hperm.mem_iff.mpr (List.mem_cons_of_mem e he'))
    have hlength : s.pop.value.entries.length = n := by
      have hone := length_pop hnext
      omega
    obtain ⟨hstate, hcount⟩ :=
      ih (h.sublist ((nodes_pop_sublist hnext).map Prod.fst)) hapart.2 hlegible hlength
    unfold drainFrom
    dsimp only
    rw [hm]
    exact ⟨hstate, by rw [List.length_cons, hcount]⟩

end Draining

/-- An opened directory counts exactly its numbered names. They are found under their numbers if and
only if they are files whose names are written for these numbers: then each entry is one file, a
drain takes out everything that was counted, and all other files stay. -/
theorem index_faithful_iff (d : Directory) (hd : Ascending.Sorted d.nodes) (order : Order) :
    let s := (openAt d order).value
    (∀ e, e ∈ s.entries ↔
      ∃ name node, (name, node) ∈ d.nodes ∧ Numbered name e.number ∧ node.size = e.size) ∧
    (Faithful s ↔ d.Canonical) ∧
    (s.emptied.entries = [] ∧ s.emptied.directory.nodes.Sublist d.nodes ∧
      ∀ f, f ∈ s.emptied.directory.nodes ↔
        f ∈ d.nodes ∧ ¬ (f.2.IsFile ∧ ∃ n < limit64, f.1 = Entry.fileName n)) ∧
    (d.Canonical →
      (∀ f, f ∈ s.emptied.directory.nodes ↔ f ∈ d.nodes ∧ ∀ n, ¬ Numbered f.1 n) ∧
      (Legible s → s.drain.value.1 = s.emptied ∧ s.drain.value.2.length = s.size)) := by
  intro s
  have hnames : (d.nodes.map Prod.fst).Nodup := hd.nodup
  obtain ⟨hempty, hsub, -⟩ := popTimes_all (s := s) hnames rfl
  refine ⟨fun e => Entry.mem_ofDirectory,
    ⟨canonical_of_faithful hnames order, faithful_of_canonical hnames order⟩,
    ⟨hempty, hsub, fun f => mem_emptied hnames order⟩, fun hcanonical => ?_⟩
  have hnumbers := (faithful_of_canonical hnames order hcanonical).nodup
  exact ⟨fun f => mem_emptied_of_canonical hnames order hcanonical,
    fun hlegible => drainFrom_all hnames hnumbers hlegible rfl⟩

def mixed : Directory :=
  .ofFiles [("notes.txt", [104, 105]), ("reading_10", Stored.content ⟨10, ⟨"c", [1]⟩⟩),
    ("reading_7", Stored.content ⟨7, ⟨"c", [2]⟩⟩), ("reading_x", [])]

theorem mixed_numbered {name : String} {node : Node} {n : Nat} (hmem : (name, node) ∈ mixed.nodes)
    (hn : Numbered name n) : name = Entry.fileName n ∧ ∃ x : Stored, node = .file x.content := by
  have hnumber : Entry.number? name = some n := Entry.number?_eq_some_iff.mpr hn
  have hlisted := Ascending.mem_ofList hmem
  simp only [List.map_cons, List.map_nil, List.mem_cons, List.not_mem_nil, or_false,
    Prod.mk.injEq] at hlisted
  rcases hlisted with ⟨rfl, rfl⟩ | ⟨rfl, rfl⟩ | ⟨rfl, rfl⟩ | ⟨rfl, rfl⟩
  · have hnone : Entry.number? "notes.txt" = none := by decide
    cases hnone.symm.trans hnumber
  · have hten : Entry.number? "reading_10" = some 10 := by decide
    obtain rfl := Option.some.inj (hnumber.symm.trans hten)
    exact ⟨by decide, _, rfl⟩
  · have hseven : Entry.number? "reading_7" = some 7 := by decide
    obtain rfl := Option.some.inj (hnumber.symm.trans hseven)
    exact ⟨by decide, _, rfl⟩
  · have hnone : Entry.number? "reading_x" = none := by decide
    cases hnone.symm.trans hnumber

theorem index_faithful_iff_mixed :
    Ascending.Sorted mixed.nodes ∧ mixed.Canonical ∧ Legible (openAt mixed .lifo).value ∧
      Faithful (openAt mixed .lifo).value ∧
      (openAt mixed .lifo).value.drain.value.1 = (openAt mixed .lifo).value.emptied ∧
      ("notes.txt", .file [104, 105]) ∈ (openAt mixed .lifo).value.emptied.directory.nodes := by
  have hsorted : Ascending.Sorted mixed.nodes := Ascending.sorted_ofList _
  have hcanonical : mixed.Canonical := by
    intro name node n hmem hn
    obtain ⟨hname, x, hx⟩ := mixed_numbered hmem hn
    exact ⟨hname, x.content, hx⟩
  have hlegible : Legible (openAt mixed .lifo).value := by
    intro e he
    obtain ⟨name, node, hmem, hn, -⟩ := Entry.mem_ofDirectory.mp he
    obtain ⟨rfl, x, rfl⟩ := mixed_numbered hmem hn
    exact ⟨x.content, x.message, (Directory.read?_eq_some_iff hsorted.nodup).mpr hmem,
      Envelope.parse_stored x.message⟩
  have hnotes : ("notes.txt", .file [104, 105]) ∈ mixed.nodes := by
    apply (Ascending.ofList_perm (by decide)).mem_iff.mpr
    exact List.mem_cons_self
  have hforeign : ∀ n, ¬ Numbered "notes.txt" n := by
    intro n hn
    have hnone : Entry.number? "notes.txt" = none := by decide
    cases hnone.symm.trans (Entry.number?_eq_some_iff.mpr hn)
  obtain ⟨-, hfaithful, -, hleft⟩ := index_faithful_iff mixed hsorted .lifo
  obtain ⟨hstay, hdrain⟩ := hleft hcanonical
  exact ⟨hsorted, hcanonical, hlegible, hfaithful.mpr hcanonical, (hdrain hlegible).1,
    (hstay _).mpr ⟨hnotes, hforeign⟩⟩

def padded (content : Octets) : Directory := .ofFiles [("reading_007", content)]

theorem entries_padded (content : Octets) :
    (openAt (padded content) .fifo).value.entries = [⟨7, content.length⟩] := by
  have hnumber : Entry.number? "reading_007" = some 7 := by decide
  have hnodes : (padded content).nodes = [("reading_007", .file content)] := rfl
  show Entry.ofDirectory (padded content) = _
  unfold Entry.ofDirectory
  simp [hnodes, hnumber, Node.size]

theorem not_found_padded (content : Octets) :
    (padded content).read? (Entry.fileName 7) = none ∧
      (padded content).remove? (Entry.fileName 7) = none := by
  have hname : Entry.fileName 7 ≠ "reading_007" := by decide
  have hnodes : (padded content).nodes = [("reading_007", .file content)] := rfl
  constructor
  · simp [Directory.read?, hnodes, Ascending.find?, hname]
  · simp [Directory.remove?, hnodes, Ascending.find?, hname]

/-- A number with zeros before it is counted, but nothing stands under its own name: the message is
never read, and when its entry is taken out the file stays. -/
theorem padded_number_not_found :
    let content := Stored.content ⟨7, ⟨"c", [97, 98, 99]⟩⟩
    let s := (openAt (padded content) .fifo).value
    s.size = 1 ∧ s.front.value = none ∧ ¬ Faithful s ∧ s.emptied.entries = [] ∧
      s.emptied.directory.nodes = [("reading_007", .file content)] := by
  intro content s
  have hentries : s.entries = [⟨7, content.length⟩] := entries_padded content
  have hnext : s.order.next? s.entries = some ⟨7, content.length⟩ := by
    rw [hentries]
    rfl
  have hread : s.directory.read? (Entry.fileName 7) = none := (not_found_padded content).1
  have hremove : s.directory.remove? (Entry.fileName 7) = none := (not_found_padded content).2
  have hsize : s.size = 1 := by
    rw [size, hentries]
    rfl
  have hemptied : s.emptied = s.pop.value := by
    rw [emptied, hsize]
    rfl
  obtain ⟨hdirectory, hrest⟩ := pop_next hnext
  refine ⟨hsize, ?_, ?_, ?_, ?_⟩
  · unfold front
    rw [hnext]
    dsimp only
    rw [hread]
  · intro h
    obtain ⟨bytes, hbytes, -⟩ := h.files _ (hentries ▸ List.mem_cons_self)
    cases hread.symm.trans hbytes
  · rw [hemptied, hrest, hentries]
    rfl
  · rw [hemptied, hdirectory, Directory.without, hremove]
    rfl

end Disk
end DeviceLink.Store
