/-!
# The seeded word stream

Every random choice of the library (frame-time jitter, the link's random walk, losses on the
link, compression levels of users without one) draws from one kind of stream: the ChaCha
block function with twelve rounds, keyed by eight words and counting blocks from zero, read
word after word. A 64-bit seed becomes the key through the PCG32 generator started at the
seed, one output word per key word. `Stream.next` hands out the words in order.
-/
namespace XrDelivery.Random

/-- Sixteen words of block state. -/
abbrev Block := Vector UInt32 16

/-- Rotate a word left by `n` bits. -/
def rotl (x : UInt32) (n : UInt32) : UInt32 := (x <<< n) ||| (x >>> (32 - n))

/-- The quarter round on words `a`, `b`, `c`, `d` of the state. -/
def quarter (s : Block) (a b c d : Fin 16) : Block :=
  let s := s.set a (s[a] + s[b])
  let s := s.set d (rotl (s[d] ^^^ s[a]) 16)
  let s := s.set c (s[c] + s[d])
  let s := s.set b (rotl (s[b] ^^^ s[c]) 12)
  let s := s.set a (s[a] + s[b])
  let s := s.set d (rotl (s[d] ^^^ s[a]) 8)
  let s := s.set c (s[c] + s[d])
  s.set b (rotl (s[b] ^^^ s[c]) 7)

/-- A column round followed by a diagonal round. -/
def doubleRound (s : Block) : Block :=
  let s := quarter s 0 4 8 12
  let s := quarter s 1 5 9 13
  let s := quarter s 2 6 10 14
  let s := quarter s 3 7 11 15
  let s := quarter s 0 5 10 15
  let s := quarter s 1 6 11 12
  let s := quarter s 2 7 8 13
  quarter s 3 4 9 14

/-- The state a block starts from: four constant words, the key, the block counter (low word
first) and two zero words. -/
def initial (key : Vector UInt32 8) (counter : UInt64) : Block :=
  #v[0x61707865, 0x3320646e, 0x79622d32, 0x6b206574,
    key[0], key[1], key[2], key[3], key[4], key[5], key[6], key[7],
    counter.toUInt32, (counter >>> 32).toUInt32, 0, 0]

/-- Block number `counter` of the stream under `key`: six double rounds, then the starting
state added word by word. -/
def block (key : Vector UInt32 8) (counter : UInt64) : Block :=
  let s0 := initial key counter
  let s := (List.range 6).foldl (fun s _ => doubleRound s) s0
  Vector.zipWith (· + ·) s s0

/-- One step of the PCG32 generator: the next state and its output word. -/
def pcgStep (state : UInt64) : UInt64 × UInt32 :=
  let state := state * 6364136223846793005 + 11634580027462260723
  let xorshifted := (((state >>> 18) ^^^ state) >>> 27).toUInt32
  let rot := (state >>> 59).toUInt32
  (state, (xorshifted >>> rot) ||| (xorshifted <<< (32 - rot)))

/-- The key of a 64-bit seed: eight successive PCG32 outputs started at the seed. -/
def keyOfSeed (seed : UInt64) : Vector UInt32 8 :=
  let (s, w0) := pcgStep seed
  let (s, w1) := pcgStep s
  let (s, w2) := pcgStep s
  let (s, w3) := pcgStep s
  let (s, w4) := pcgStep s
  let (s, w5) := pcgStep s
  let (s, w6) := pcgStep s
  let (_, w7) := pcgStep s
  #v[w0, w1, w2, w3, w4, w5, w6, w7]

/-- A position in the word stream of a key: the block in hand, the number of the next block,
and how many words of the block in hand are used. -/
structure Stream where
  key : Vector UInt32 8
  nextBlock : UInt64
  current : Block
  used : Fin 17

/-- The stream of a seed, before its first word. -/
def Stream.ofSeed (seed : UInt64) : Stream :=
  let key := keyOfSeed seed
  ⟨key, 0, Vector.replicate 16 0, 16⟩

/-- The next word of the stream, and the stream after it. -/
def Stream.next (g : Stream) : UInt32 × Stream :=
  if h : g.used.val < 16 then
    (g.current[g.used.val], { g with used := ⟨g.used.val + 1, by omega⟩ })
  else
    let b := block g.key g.nextBlock
    (b[0], { g with current := b, nextBlock := g.nextBlock + 1, used := 1 })

/-- The next two words as one 64-bit value, the first word low. -/
def Stream.nextWide (g : Stream) : UInt64 × Stream :=
  let (lo, g) := g.next
  let (hi, g) := g.next
  (lo.toUInt64 ||| (hi.toUInt64 <<< 32), g)

end XrDelivery.Random
