import FexEmu.IR.AOTIR
/-!
# The AOT IR cache round-trips

The index of a stream has the positions of its records, and the search finds what the index has.
-/
namespace FexEmu.IR.AOTIR

open ByteMemory
open BitVec (ofNat_add toNat_ofNat)
open List (append_assoc append_nil length_append)

/-! ## Records in memory -/

section
variable {m : Memory} {e : BitVec 64}

theorem add_add (e x y : BitVec 64) : e + x + y = e + (x + y) := BitVec.add_assoc _ _ _

theorem read_of_stores {w : Nat} {x : BitVec w} (hw : w = 8 * ((w + 7) / 8)) (h : Stores m e (bytes ((w + 7) / 8) x.toNat)) :
    read m e w = x := by
  have hlt : x.toNat < (2 ^ 8) ^ ((w + 7) / 8) := by
    rw [← pow_mul, ← hw]
    exact x.isLt
  rw [ByteMemory.read, readNat_of_stores h hlt, BitVec.ofNat_toNat, BitVec.setWidth_eq]

/-- Lists whose sizes 64 bits can hold. -/
structure IRListView.Sized (v : IRListView) : Prop where
  data : v.data.length < 2 ^ 64
  list : v.list.length < 2 ^ 64

theorem raData_spec {r : RegisterAllocationData} (h : Stores m e r.serialize) :
    read m e 32 = r.spillSlotCount ∧ mapCountOf m e = r.map.length ∧ readList m (e + 9) r.map.length = r.map := by
  simp only [RegisterAllocationData.serialize, stores_append, bytes_length, add_add] at h
  obtain ⟨hspill, hcount, -, hmap⟩ := h
  exact ⟨read_of_stores rfl hspill, readNat_of_stores hcount r.mapCount_lt, readList_of_stores hmap⟩

theorem irData_spec {v : IRListView} (hv : v.Sized) (h : Stores m e v.serialize) :
    readList m (getData m e) (readNat m (e + 16) 8) = v.data ∧
      readList m (getListData m e) (readNat m (e + 24) 8) = v.list := by
  simp only [IRListView.serialize, stores_append, bytes_length, add_add] at h
  obtain ⟨hnull, hnullList, hdataSize, hlistSize, -, hdata, hlist⟩ := h
  have hdataSize' : readNat m (e + 16) 8 = v.data.length := readNat_of_stores hdataSize hv.data
  have hlistSize' : readNat m (e + 24) 8 = v.list.length := readNat_of_stores hlistSize hv.list
  have hnull' : readNat m e 8 = 0 := readNat_of_stores hnull (by norm_num)
  have hnullList' : readNat m (e + 8) 8 = 0 := readNat_of_stores hnullList (by norm_num)
  rw [getData, getListData, hnull', hnullList', hdataSize', hlistSize', if_neg (by simp), if_neg (by simp)]
  refine ⟨readList_of_stores hdata, ?_⟩
  rw [add_add]
  rw [show (8#64 + (8#64 + (8#64 + (8#64 + (8#64 + BitVec.ofNat 64 v.data.length))))) =
    40 + BitVec.ofNat 64 v.data.length by simp only [← add_add]; rfl] at hlist
  exact readList_of_stores hlist

theorem contentsAt_of_stores {a : Append} (ha : a.irList.Sized) (h : Stores m e a.record) : contentsAt m e = a.contents := by
  simp only [Append.record, stores_append, bytes_length] at h
  obtain ⟨hhash, hlength, hra, hir⟩ := h
  rw [show e + 8#64 + 8#64 = e + 16 from add_add e 8#64 8#64] at hra hir
  obtain ⟨hspill, hcount, hmap⟩ := raData_spec hra
  have hlen : a.raData.serialize.length = raSize a.raData.map.length := by
    simp only [RegisterAllocationData.serialize, length_append, bytes_length, raSize]
    omega
  rw [hlen] at hir
  have hview : getIRData m e = e + 16 + BitVec.ofNat 64 (raSize a.raData.map.length) := by
    rw [getIRData, getRAData, hcount]
  rw [← hview] at hir
  obtain ⟨hdata, hlist⟩ := irData_spec ha hir
  have hhash' : ByteMemory.read m e 64 = a.hash := @read_of_stores m e 64 a.hash rfl hhash
  have hlength' : ByteMemory.read m (e + 8) 64 = a.length := @read_of_stores m (e + 8) 64 a.length rfl hlength
  simp only [contentsAt, getRAData, hcount, hspill, hmap, hdata, hlist, hhash', hlength', Append.contents]

end

/-! ## Appends -/

/-- The index has the position of the first record of each address. -/
structure Captured (entry : AOTIRCaptureCacheEntry) (appends : List Append) : Prop where
  cookie : ∃ rest, entry.stream = bytes 8 AOTIR_COOKIE ++ rest
  keys : ∀ k off, entry.index.find? k = some off → k < 2 ^ 64
  found : ∀ rip : BitVec 64, ∀ off, entry.index.find? rip.toNat = some off →
    ∃ b before after, firstAppend appends rip = some b ∧ entry.stream = before ++ (b.record ++ after) ∧ before.length = off
  missing : ∀ rip : BitVec 64, entry.index.find? rip.toNat = none → firstAppend appends rip = none

theorem firstAppend_concat (appends : List Append) (a : Append) (rip : BitVec 64) :
    firstAppend (appends ++ [a]) rip = (firstAppend appends rip).or (if a.guestRIP = rip then some a else none) := by
  rw [firstAppend, List.find?_append, List.find?_singleton, firstAppend]
  simp

theorem captured_opened : Captured opened [] :=
  ⟨⟨[], (append_nil _).symm⟩, fun _ _ h => (nomatch h), fun _ _ h => (nomatch h), fun _ _ => rfl⟩

theorem Captured.append {entry : AOTIRCaptureCacheEntry} {appends : List Append} (h : Captured entry appends) (a : Append) :
    Captured (appendAOTIRCaptureCache entry a) (appends ++ [a]) := by
  obtain ⟨rest, hcookie⟩ := h.cookie
  simp only [appendAOTIRCaptureCache]
  split
  · rename_i hnew
    have hnone := h.missing a.guestRIP hnew
    refine ⟨⟨rest ++ a.record, by rw [hcookie, append_assoc]⟩, fun k off hk => ?_, fun rip off hrip => ?_, fun rip hrip => ?_⟩
    · rw [OrderedMap.find?_emplace] at hk
      split at hk
      · rename_i heq
        rw [heq]
        exact a.guestRIP.isLt
      · exact h.keys k off hk
    · rw [OrderedMap.find?_emplace, hnew, Option.getD_none] at hrip
      split at hrip
      · rename_i heq
        obtain rfl : rip = a.guestRIP := BitVec.eq_of_toNat_eq heq
        refine ⟨a, entry.stream, [], ?_, by rw [append_nil], Option.some.inj hrip⟩
        rw [firstAppend_concat, hnone, if_pos rfl]
        rfl
      · obtain ⟨b, before, after, hfirst, hstream, hlen⟩ := h.found rip off hrip
        refine ⟨b, before, after ++ a.record, ?_, ?_, hlen⟩
        · rw [firstAppend_concat, hfirst]
          rfl
        · rw [hstream, append_assoc, append_assoc]
    · rw [OrderedMap.find?_emplace] at hrip
      split at hrip
      · cases hrip
      · rename_i hne
        rw [firstAppend_concat, h.missing rip hrip, if_neg fun heq => hne (by rw [heq])]
        rfl
  · rename_i hold
    -- the index has an entry for the address already, and stays
    have hsame : ∀ k, (entry.index.emplace a.guestRIP.toNat entry.stream.length).find? k = entry.index.find? k := by
      intro k
      obtain ⟨off, hoff⟩ := Option.ne_none_iff_exists'.mp hold
      rw [OrderedMap.find?_emplace, hoff, Option.getD_some]
      split
      · rename_i heq
        rw [heq, hoff]
      · rfl
    refine ⟨⟨rest, hcookie⟩, fun k off hk => h.keys k off (by rwa [hsame] at hk), fun rip off hrip => ?_, fun rip hrip => ?_⟩
    · rw [hsame] at hrip
      obtain ⟨b, before, after, hfirst, hstream, hlen⟩ := h.found rip off hrip
      refine ⟨b, before, after, ?_, hstream, hlen⟩
      rw [firstAppend_concat, hfirst]
      rfl
    · rw [hsame] at hrip
      rw [firstAppend_concat, h.missing rip hrip, if_neg fun heq => hold (by rw [heq]; exact hrip)]
      rfl

theorem Captured.appends {entry : AOTIRCaptureCacheEntry} {done : List Append} : ∀ {rest : List Append}, Captured entry done →
    Captured (rest.foldl appendAOTIRCaptureCache entry) (done ++ rest) := by
  intro rest h
  induction rest generalizing entry done with
  | nil => rwa [append_nil]
  | cons a rest ih =>
    have := ih (h.append a)
    rwa [append_assoc] at this

theorem captured_of_capture {appends : List Append} {entry : AOTIRCaptureCacheEntry} (h : capture appends = some entry) :
    Captured entry appends := by
  cases appends with
  | nil => cases h
  | cons a rest =>
    rw [capture, Option.some.injEq] at h
    rw [← h]
    exact (captured_opened.append a).appends

/-! ## The search -/

section
variable {m : Memory} {array : BitVec 64}

theorem indexEntry_length (e : Nat × Nat) : (indexEntry e).length = 16 := by
  rw [indexEntry, length_append, bytes_length, bytes_length]

theorem flatMap_indexEntry_length (entries : List (Nat × Nat)) : (entries.flatMap indexEntry).length = 16 * entries.length := by
  induction entries with
  | nil => rfl
  | cons e rest ih =>
    rw [List.flatMap_cons, length_append, ih, indexEntry_length, List.length_cons]
    omega

theorem indexEntries_spec : ∀ {entries : List (Nat × Nat)} {a : BitVec 64}, (∀ e ∈ entries, e.1 < 2 ^ 64 ∧ e.2 < 2 ^ 64) →
    Stores m a (entries.flatMap indexEntry) → ∀ i (h : i < entries.length),
      readNat m (a + BitVec.ofNat 64 (16 * i)) 8 = entries[i].1 ∧ readNat m (a + BitVec.ofNat 64 (16 * i) + 8) 8 = entries[i].2
  | [], _, _, _, i, hi => absurd hi (Nat.not_lt_zero i)
  | e :: rest, a, hlt, h, i, hi => by
    rw [List.flatMap_cons, stores_append, indexEntry_length, indexEntry, stores_append, bytes_length] at h
    obtain ⟨⟨hkey, hvalue⟩, hrest⟩ := h
    cases i with
    | zero =>
      have he := hlt e List.mem_cons_self
      rw [Nat.mul_zero, BitVec.add_zero]
      exact ⟨readNat_of_stores hkey he.1, readNat_of_stores hvalue he.2⟩
    | succ i =>
      have := indexEntries_spec (fun x hx => hlt x (List.mem_cons_of_mem e hx)) hrest i (Nat.lt_of_succ_lt_succ hi)
      rw [add_add, ← ofNat_add, show 16 + 16 * i = 16 * (i + 1) by omega] at this
      exact this

/-- The index behind `array` has these entries, in the order of their keys. -/
structure HasIndex (m : Memory) (array : BitVec 64) (entries : List (Nat × Nat)) : Prop where
  sorted : entries.Pairwise fun a b => a.1 < b.1
  count : readNat m array 8 = entries.length
  small : entries.length < 2 ^ 63
  entries : ∀ i (h : i < entries.length), guestStartOf m array i = entries[i].1 ∧
    dataOffsetOf m array i = BitVec.ofNat 64 entries[i].2

variable {entries : List (Nat × Nat)} {guestStart : BitVec 64}

theorem findLoop_spec (h : HasIndex m array entries) (l r : Int) (hl : 0 ≤ l) (hr : r < entries.length) :
    (∀ k (hk : k < entries.length), l ≤ k → k ≤ r → entries[k].1 = guestStart.toNat →
      findLoop m array guestStart l r = some (getInlineEntry m array (BitVec.ofNat 64 entries[k].2))) ∧
    ((∀ k (hk : k < entries.length), l ≤ k → k ≤ r → entries[k].1 ≠ guestStart.toNat) →
      findLoop m array guestStart l r = none) := by
  have hmono : ∀ {i j : Nat} (hi : i < entries.length) (hj : j < entries.length), entries[i].1 < entries[j].1 → i < j := by
    intro i j hi hj hlt
    by_contra hge
    rcases Nat.lt_or_eq_of_le (Nat.not_lt.mp hge) with hji | rfl
    · have := List.pairwise_iff_getElem.mp h.sorted j i hj hi hji
      omega
    · omega
  -- one case for a hit, one for each half, and one for an empty interval
  fun_induction findLoop m array guestStart l r with
  | case1 l r hle i heq =>
    obtain ⟨n, hn⟩ := Int.eq_ofNat_of_zero_le (show 0 ≤ i by omega)
    have hlt : n < entries.length := by omega
    obtain ⟨hstart, hoff⟩ := h.entries n hlt
    rw [hn] at heq ⊢
    rw [hstart] at heq
    refine ⟨fun k hk _ _ hkey => ?_, fun hnone => absurd heq (hnone n hlt (by omega) (by omega))⟩
    have hkn : ¬k < n ∧ ¬n < k := by
      constructor
      · intro hkn
        have := List.pairwise_iff_getElem.mp h.sorted k n hk hlt hkn
        omega
      · intro hnk
        have := List.pairwise_iff_getElem.mp h.sorted n k hlt hk hnk
        omega
    obtain rfl : k = n := by omega
    rw [hoff]
  | case2 l r hle i hne hlt ih =>
    obtain ⟨n, hn⟩ := Int.eq_ofNat_of_zero_le (show 0 ≤ i by omega)
    have hnl : n < entries.length := by omega
    obtain ⟨hstart, -⟩ := h.entries n hnl
    rw [hn, hstart] at hlt
    obtain ⟨hfound, hmissing⟩ := ih (by omega) hr
    refine ⟨fun k hk hlk hkr hkey => hfound k hk ?_ hkr hkey, fun hnone => hmissing fun k hk hik => hnone k hk (by omega)⟩
    have := hmono hnl hk (by omega)
    omega
  | case3 l r hle i hne hge ih =>
    obtain ⟨n, hn⟩ := Int.eq_ofNat_of_zero_le (show 0 ≤ i by omega)
    have hnl : n < entries.length := by omega
    obtain ⟨hstart, -⟩ := h.entries n hnl
    rw [hn, hstart] at hge hne
    obtain ⟨hfound, hmissing⟩ := ih hl (by omega)
    refine ⟨fun k hk hlk hkr hkey => hfound k hk hlk ?_ hkey,
      fun hnone => hmissing fun k hk hlk hki => hnone k hk hlk (by omega)⟩
    have := hmono hk hnl (by omega)
    omega
  | case4 l r hgt =>
    exact ⟨fun k _ hlk hkr => by omega, fun _ => rfl⟩

theorem toInt_pred {n : Nat} (h : n < 2 ^ 63) : (BitVec.ofNat 64 n - 1).toInt = (n : Int) - 1 := by
  have hnat : (BitVec.ofNat 64 n - 1).toNat = (2 ^ 64 - 1 + n) % 2 ^ 64 := by
    rw [BitVec.toNat_sub, toNat_ofNat, show (1 : BitVec 64).toNat = 1 from rfl]
    omega
  rw [BitVec.toInt_eq_toNat_cond, hnat]
  split <;> omega

theorem find_spec {index : OrderedMap Nat Nat} (h : HasIndex m array index.entries) (guestStart : BitVec 64) :
    find m array guestStart =
      (index.find? guestStart.toNat).map fun off => getInlineEntry m array (BitVec.ofNat 64 off) := by
  have hspec := @findLoop_spec m array index.entries guestStart h 0 (index.entries.length - 1) le_rfl (by omega)
  rw [find, h.count, toInt_pred h.small]
  cases hf : index.find? guestStart.toNat with
  | none =>
    refine hspec.2 fun k hk _ _ hkey => ?_
    have hmem : (guestStart.toNat, index.entries[k].2) ∈ index.entries := by
      rw [← hkey]
      exact List.getElem_mem hk
    rw [OrderedMap.mem_entries, hf] at hmem
    cases hmem
  | some off =>
    obtain ⟨k, hk, heq⟩ := List.getElem_of_mem ((OrderedMap.mem_entries index _ _).mpr hf)
    rw [hspec.1 k hk (by omega) (by omega) (by rw [heq]), heq]
    rfl

/-- The index that is written is the one that is searched. -/
theorem hasIndex_of_stores {index : OrderedMap Nat Nat} {position : Nat} (hsmall : index.entries.length < 2 ^ 63)
    (hlt : ∀ e ∈ index.entries, e.1 < 2 ^ 64 ∧ e.2 < 2 ^ 64) (h : Stores m array (inlineIndex position index.entries)) :
    HasIndex m array index.entries ∧ dataBaseOf m array = -BitVec.ofNat 64 position := by
  simp only [inlineIndex, stores_append, bytes_length] at h
  obtain ⟨hcount, hbase, hentries⟩ := h
  rw [show array + 8#64 + 8#64 = array + 16#64 from add_add array 8#64 8#64] at hentries
  refine ⟨⟨index.sorted, readNat_of_stores hcount (by omega), hsmall, fun i hi => ?_⟩, ?_⟩
  · have haddr : array + BitVec.ofInt 64 (16 + 16 * (i : Int)) = array + 16#64 + BitVec.ofNat 64 (16 * i) := by
      rw [show (16 : Int) + 16 * i = ((16 + 16 * i : Nat) : Int) by push_cast; rfl, BitVec.ofInt_natCast, ofNat_add,
        add_add]
    obtain ⟨hkey, hvalue⟩ := indexEntries_spec hlt hentries i hi
    rw [guestStartOf, dataOffsetOf, haddr, hkey, hvalue]
    exact ⟨rfl, rfl⟩
  · have hlt' : (-BitVec.ofNat 64 position).toNat < (2 ^ 8) ^ 8 := BitVec.isLt _
    rw [dataBaseOf, show readNat m (array + 8) 8 = _ from readNat_of_stores hbase hlt', BitVec.ofNat_toNat,
      BitVec.setWidth_eq]

end

/-! ## The loader -/

theorem pad_append (stream : List Byte) (n : Nat) : ∃ zeros, pad stream n = stream ++ zeros := by
  induction n generalizing stream with
  | zero => exact ⟨[], (append_nil _).symm⟩
  | succ n ih =>
    rw [pad]
    split
    · exact ⟨[], (append_nil _).symm⟩
    · obtain ⟨zeros, hzeros⟩ := ih (stream ++ bytes 1 0)
      exact ⟨bytes 1 0 ++ zeros, by rw [hzeros, append_assoc]⟩

theorem inlineIndex_length (position : Nat) (entries : List (Nat × Nat)) :
    (inlineIndex position entries).length = indexSize entries.length := by
  simp only [inlineIndex, length_append, bytes_length, flatMap_indexEntry_length, indexSize, indexEntrySize]
  omega

theorem toInt_neg_ofNat {n : Nat} (h : n < 2 ^ 63) : (-BitVec.ofNat 64 n).toInt = -(n : Int) := by
  have hnat : (-BitVec.ofNat 64 n).toNat = (2 ^ 64 - n) % 2 ^ 64 := by
    rw [BitVec.toNat_neg, toNat_ofNat, Nat.mod_eq_of_lt (show n < 2 ^ 64 by omega)]
  rw [BitVec.toInt_eq_toNat_cond, hnat]
  split <;> omega

theorem lseekEnd_eq {file : List Byte} {position n : Nat} {offset : BitVec 64} (hoff : offset = -BitVec.ofNat 64 n)
    (hn : n ≤ file.length) (hfile : file.length < 2 ^ 63) : lseekEnd file position offset = file.length - n := by
  rw [lseekEnd, hoff, toInt_neg_ofNat (by omega), if_pos (by omega)]
  omega

theorem readAll_eq {file before part after : List Byte} (h : file = before ++ (part ++ after)) (hpart : part.length ≤ maxRead) :
    readAll file before.length part.length = some part := by
  rw [readAll, h, List.drop_left, List.take_left, if_pos]
  simp only [length_append]
  omega

theorem loadAOTIRCache_spec {fileId stream zeros : List Byte} {entries : List (Nat × Nat)} {file rest : List Byte}
    {mmap : Nat → Option (BitVec 64)} {filePtr : BitVec 64} (hid : fileId.length ≤ maxRead)
    (hcookie : stream = bytes 8 AOTIR_COOKIE ++ rest)
    (hfile : file = (stream ++ zeros) ++ (inlineIndex (stream ++ zeros).length entries ++
      (bytes 8 (indexSize entries.length) ++ (fileId ++ bytes 8 fileId.length)))) (hsmall : file.length < 2 ^ 63)
    (hmmap : mmap ((file.length + 4095) / 4096 * 4096) = some filePtr) :
    loadAOTIRCache fileId file mmap =
      some ⟨filePtr + BitVec.ofNat 64 (stream ++ zeros).length, filePtr, (file.length + 4095) / 4096 * 4096⟩ := by
  have hlen : file.length = (stream ++ zeros).length + indexSize entries.length + 8 + fileId.length + 8 := by
    rw [hfile]
    simp only [length_append, bytes_length, inlineIndex_length]
    omega
  -- the four reads, from the front and then from the end of the file
  have htag : readAll file 0 8 = some (bytes 8 AOTIR_COOKIE) := by
    have hsplit : file = [] ++ (bytes 8 AOTIR_COOKIE ++ (rest ++ (zeros ++ (inlineIndex (stream ++ zeros).length entries ++
        (bytes 8 (indexSize entries.length) ++ (fileId ++ bytes 8 fileId.length)))))) := by
      rw [List.nil_append, hfile]
      conv_lhs => rw [hcookie]
      simp [hcookie]
    exact readAll_eq hsplit (by rw [bytes_length]; decide)
  have hmod : readAll file (file.length - 8) 8 = some (bytes 8 fileId.length) := by
    have hsplit : file = ((stream ++ zeros) ++ (inlineIndex (stream ++ zeros).length entries ++
        (bytes 8 (indexSize entries.length) ++ fileId))) ++ (bytes 8 fileId.length ++ []) := by
      rw [hfile]
      simp
    have := readAll_eq hsplit (by rw [bytes_length]; decide)
    rwa [bytes_length, show ((stream ++ zeros) ++ (inlineIndex (stream ++ zeros).length entries ++
      (bytes 8 (indexSize entries.length) ++ fileId))).length = file.length - 8 by
        rw [hlen]
        simp only [length_append, bytes_length, inlineIndex_length]
        omega] at this
  have hmodule : readAll file (file.length - (8 + fileId.length)) fileId.length = some fileId := by
    have hsplit : file = ((stream ++ zeros) ++ (inlineIndex (stream ++ zeros).length entries ++
        bytes 8 (indexSize entries.length))) ++ (fileId ++ bytes 8 fileId.length) := by
      rw [hfile]
      simp
    have := readAll_eq hsplit hid
    rwa [show ((stream ++ zeros) ++ (inlineIndex (stream ++ zeros).length entries ++
      bytes 8 (indexSize entries.length))).length = file.length - (8 + fileId.length) by
        rw [hlen]
        simp only [length_append, bytes_length, inlineIndex_length]
        omega] at this
  have hindex : readAll file (file.length - (16 + fileId.length)) 8 = some (bytes 8 (indexSize entries.length)) := by
    have hsplit : file = ((stream ++ zeros) ++ inlineIndex (stream ++ zeros).length entries) ++
        (bytes 8 (indexSize entries.length) ++ (fileId ++ bytes 8 fileId.length)) := by
      rw [hfile]
      simp
    have := readAll_eq hsplit (by rw [bytes_length]; decide)
    rwa [bytes_length, show ((stream ++ zeros) ++ inlineIndex (stream ++ zeros).length entries).length =
      file.length - (16 + fileId.length) by
        rw [hlen]
        simp only [length_append, inlineIndex_length]
        omega] at this
  -- the offsets are unsigned and wrap around on the way to the end
  have hseek : lseekEnd file 8 (-8) = file.length - 8 := lseekEnd_eq rfl (by omega) hsmall
  have hseekModule : lseekEnd file (file.length - 8 + 8) (-8 - BitVec.ofNat 64 fileId.length) =
      file.length - (8 + fileId.length) := by
    refine lseekEnd_eq ?_ (by omega) hsmall
    rw [ofNat_add, show (8 : BitVec 64) = BitVec.ofNat 64 8 from rfl]
    ring
  have hseekIndex : lseekEnd file (file.length - (8 + fileId.length) + fileId.length)
      (-8 - BitVec.ofNat 64 fileId.length - 8) = file.length - (16 + fileId.length) := by
    refine lseekEnd_eq ?_ (by omega) hsmall
    rw [show 16 + fileId.length = 8 + fileId.length + 8 by omega, ofNat_add, ofNat_add,
      show (8 : BitVec 64) = BitVec.ofNat 64 8 from rfl]
    ring
  have hcookieValue : ofBytes (bytes 8 AOTIR_COOKIE) = AOTIR_COOKIE := ofBytes_bytes (by decide)
  have hidValue : ofBytes (bytes 8 fileId.length) = fileId.length := ofBytes_bytes (by omega)
  have hindexValue : ofBytes (bytes 8 (indexSize entries.length)) = indexSize entries.length := ofBytes_bytes (by omega)
  have hoffset : BitVec.ofNat 64 file.length - BitVec.ofNat 64 (indexSize entries.length) - 8 - BitVec.ofNat 64 fileId.length -
      8 = BitVec.ofNat 64 (stream ++ zeros).length := by
    rw [hlen]
    simp only [ofNat_add]
    rw [show (8 : BitVec 64) = BitVec.ofNat 64 8 from rfl]
    ring
  simp only [loadAOTIRCache, htag, Option.bind_some, hcookieValue, if_true, hseek, hmod, hidValue, hseekModule, hmodule,
    hseekIndex, hindex, hindexValue, hmmap, Option.map_some, hoffset]

/-! ## The round trip -/

theorem Append.sized {a : Append} (h : a.record.length < 2 ^ 63) : a.irList.Sized := by
  simp only [Append.record, IRListView.serialize, length_append] at h
  exact ⟨by omega, by omega⟩

theorem Captured.entries_lt {entry : AOTIRCaptureCacheEntry} {appends : List Append} (h : Captured entry appends)
    (hsmall : entry.stream.length < 2 ^ 63) : ∀ e ∈ entry.index.entries, e.1 < 2 ^ 64 ∧ e.2 < 2 ^ 64 := by
  intro e he
  have hfind := (OrderedMap.mem_entries entry.index e.1 e.2).mp he
  have hkey := h.keys _ _ hfind
  have hrip : (BitVec.ofNat 64 e.1).toNat = e.1 := by rw [toNat_ofNat, Nat.mod_eq_of_lt hkey]
  rw [← hrip] at hfind
  obtain ⟨b, before, after, -, hstream, hlen⟩ := h.found _ _ hfind
  rw [hstream, length_append] at hsmall
  exact ⟨hkey, by omega⟩

/-- The cache file is loaded for the same file id, and its index finds what was first appended for an address and nothing for
another. -/
theorem cache_round_trip {fileId : List Byte} {appends : List Append} {entry : AOTIRCaptureCacheEntry}
    (hcapture : capture appends = some entry) (hid : fileId.length ≤ maxRead)
    (hsmall : (finalizeAOTIRCache fileId entry).length < 2 ^ 63) {mmap : Nat → Option (BitVec 64)} {filePtr : BitVec 64}
    (hmmap : mmap (((finalizeAOTIRCache fileId entry).length + 4095) / 4096 * 4096) = some filePtr) {m : Memory}
    (hm : Stores m filePtr (finalizeAOTIRCache fileId entry)) :
    ∃ cache, loadAOTIRCache fileId (finalizeAOTIRCache fileId entry) mmap = some cache ∧
      ∀ guestRIP, (find m cache.array guestRIP).map (contentsAt m) = (firstAppend appends guestRIP).map Append.contents := by
  have hcaptured := captured_of_capture hcapture
  obtain ⟨rest, hcookie⟩ := hcaptured.cookie
  obtain ⟨zeros, hpad⟩ := pad_append entry.stream 31
  generalize hfile : finalizeAOTIRCache fileId entry = file at *
  simp only [finalizeAOTIRCache, hpad] at hfile
  refine ⟨_, loadAOTIRCache_spec hid hcookie hfile.symm hsmall hmmap, fun guestRIP => ?_⟩
  have hlen : file.length = (entry.stream ++ zeros).length + indexSize entry.index.entries.length + 8 + fileId.length + 8 := by
    rw [← hfile]
    simp only [length_append, bytes_length, inlineIndex_length]
    omega
  have hstreamLen : entry.stream.length ≤ (entry.stream ++ zeros).length := by
    rw [length_append]
    omega
  rw [indexSize, indexEntrySize] at hlen
  rw [← hfile, stores_append, stores_append, stores_append] at hm
  obtain ⟨⟨hstream, -⟩, hindex, -⟩ := hm
  obtain ⟨hhas, hbase⟩ := hasIndex_of_stores (by omega) (hcaptured.entries_lt (by omega)) hindex
  rw [find_spec hhas]
  cases hfind : entry.index.find? guestRIP.toNat with
  | none =>
    rw [hcaptured.missing guestRIP hfind]
    rfl
  | some off =>
    obtain ⟨b, before, after, hfirst, hsplit, rfl⟩ := hcaptured.found guestRIP off hfind
    rw [hsplit, stores_append, stores_append] at hstream
    have hrecord : b.record.length < 2 ^ 63 := by
      have hparts := congrArg List.length hsplit
      simp only [length_append] at hparts
      omega
    -- the base of the index is the begin of the file
    have haddr : getInlineEntry m (filePtr + BitVec.ofNat 64 (entry.stream ++ zeros).length) (BitVec.ofNat 64 before.length) =
        filePtr + BitVec.ofNat 64 before.length := by
      rw [getInlineEntry, hbase]
      ring
    rw [hfirst, Option.map_some, Option.map_some, Option.map_some, haddr,
      contentsAt_of_stores (Append.sized hrecord) hstream.2.1]

/-! ## A file of three appends -/

/-- The memory that has the file at its first address. -/
def mapped (file : List Byte) : Memory := fun a => file.getD a.toNat 0

theorem stores_mapped {file before l : List Byte} (h : file = before ++ l) (hsmall : file.length < 2 ^ 64) :
    Stores (mapped file) (BitVec.ofNat 64 before.length) l := by
  induction l generalizing before with
  | nil => trivial
  | cons b rest ih =>
    have hlen : before.length < 2 ^ 64 := by
      have := congrArg List.length h
      rw [length_append] at this
      omega
    refine ⟨?_, ?_⟩
    · rw [mapped, toNat_ofNat, Nat.mod_eq_of_lt hlen, h]
      simp
    · have := ih (show file = (before ++ [b]) ++ rest by rw [h, append_assoc, List.singleton_append])
      rwa [length_append, List.length_singleton, ofNat_add] at this

def twoNodes (hash : BitVec 64) (guestRIP : BitVec 64) : Append :=
  ⟨guestRIP, 5, hash, ⟨[1, 2], [3]⟩, ⟨1, false, [7, 8], by decide⟩⟩

def threeAppends : List Append := [twoNodes 10 0x2000, twoNodes 11 0x1000, twoNodes 12 0x2000]

def threeEntry : AOTIRCaptureCacheEntry :=
  appendAOTIRCaptureCache (appendAOTIRCaptureCache (appendAOTIRCaptureCache opened (twoNodes 10 0x2000)) (twoNodes 11 0x1000))
    (twoNodes 12 0x2000)

set_option maxRecDepth 4000 in
theorem cache_round_trip_three : ∃ cache,
    loadAOTIRCache [108, 115] (finalizeAOTIRCache [108, 115] threeEntry) (fun _ => some 0) = some cache ∧
      (find (mapped (finalizeAOTIRCache [108, 115] threeEntry)) cache.array 0x2000).map
        (contentsAt (mapped (finalizeAOTIRCache [108, 115] threeEntry))) = some (twoNodes 10 0x2000).contents ∧
      find (mapped (finalizeAOTIRCache [108, 115] threeEntry)) cache.array 0x3000 = none := by
  have hlen : (finalizeAOTIRCache [108, 115] threeEntry).length = 226 := by decide
  have hstores : Stores (mapped (finalizeAOTIRCache [108, 115] threeEntry)) (BitVec.ofNat 64 ([] : List Byte).length)
      (finalizeAOTIRCache [108, 115] threeEntry) := stores_mapped rfl (by rw [hlen]; decide)
  obtain ⟨cache, hload, hfind⟩ := @cache_round_trip [108, 115] threeAppends threeEntry rfl (by decide)
    (by rw [hlen]; decide) (fun _ => some 0) 0 rfl _ hstores
  refine ⟨cache, hload, hfind 0x2000, ?_⟩
  exact Option.map_eq_none_iff.mp (hfind 0x3000)

end FexEmu.IR.AOTIR
