import EthereumSettlement.PastaPoseidon

/-!
# Executable hash primitives

Keccak-256 and SHA-256 over byte strings and Mina's Poseidon permutation with the
vendored `fp_kimchi` parameters, all by structural recursion on natural numbers, so that
concrete receipts and claims can be evaluated. The 1600-bit state of Keccak is one
number, first lane lowest, five lanes to a row, and the words of a SHA-256 state and
schedule are one number each, first word highest. Operations are written by their names
on natural numbers, which is how the kernel computes them. No general result depends on
this module: it shows that the assumptions of those results are met by real digests.
-/

namespace EthereumSettlement.ReferenceHashes

open ByteWords PastaPoseidon

/-- The range of a lane. -/
def laneRange : ℕ := 2 ^ 64

/-- The range of a row. -/
def rowRange : ℕ := 2 ^ 320

/-- The factor that copies a row into all five rows. -/
def fiveRows : ℕ := 1 + 2 ^ 320 + 2 ^ 640 + 2 ^ 960 + 2 ^ 1280

/-- The lowest bit of each lane of a row. -/
def lowBits : ℕ := 1 + 2 ^ 64 + 2 ^ 128 + 2 ^ 192 + 2 ^ 256

/-- The other bits of each lane of a row. -/
def highBits : ℕ := 2 ^ 320 - 1 - lowBits

/-- The parities of the five columns. -/
def columnParities (state : ℕ) : ℕ :=
  Nat.mod (Nat.xor state (Nat.xor (Nat.shiftRight state 320) (Nat.xor (Nat.shiftRight state 640)
    (Nat.xor (Nat.shiftRight state 960) (Nat.shiftRight state 1280))))) rowRange

/-- Rotate every lane of a row by one bit. -/
def rotateLanes (row : ℕ) : ℕ :=
  Nat.lor (Nat.land (Nat.shiftLeft row 1) highBits) (Nat.land (Nat.shiftRight row 63) lowBits)

/-- The row that the first step adds to every row: the parities moved up one
lane, and those moved down one lane and rotated. -/
def parityEffect (row : ℕ) : ℕ :=
  Nat.xor (Nat.mod (Nat.lor (Nat.shiftRight row 256) (Nat.shiftLeft row 64)) rowRange)
    (rotateLanes (Nat.mod (Nat.lor (Nat.shiftRight row 64) (Nat.shiftLeft row 256)) rowRange))

/-- For each place the position of the lane that moves there, and 64 less the
lane's rotation. -/
def laneMoves : List (ℕ × ℕ) :=
  [(0, 64), (384, 20), (768, 21), (1152, 43), (1536, 50), (192, 36), (576, 44), (640, 61),
   (1024, 19), (1408, 3), (64, 63), (448, 58), (832, 39), (1216, 56), (1280, 46), (256, 37),
   (320, 28), (704, 54), (1088, 49), (1472, 8), (128, 2), (512, 9), (896, 25), (960, 23),
   (1344, 62)]

/-- Rotate the lanes and move them to their new places. -/
def moveLanes (state : ℕ) : List (ℕ × ℕ) → ℕ
  | [] => 0
  | (source, back) :: moves =>
    Nat.lor
      (Nat.mod (Nat.shiftRight (Nat.mul (Nat.mod (Nat.shiftRight state source) laneRange)
        (Nat.succ laneRange)) back) laneRange)
      (Nat.shiftLeft (moveLanes state moves) 64)

/-- The first four lanes of every row. -/
def firstFour : ℕ := (2 ^ 256 - 1) * fiveRows

/-- The last lane of every row. -/
def lastOne : ℕ := (2 ^ 320 - 2 ^ 256) * fiveRows

/-- The first three lanes of every row. -/
def firstThree : ℕ := (2 ^ 192 - 1) * fiveRows

/-- The last two lanes of every row. -/
def lastTwo : ℕ := (2 ^ 320 - 2 ^ 192) * fiveRows

/-- The nonlinear step: each lane with its two right neighbours in the row. -/
def combineRows (state : ℕ) : ℕ :=
  Nat.xor state (Nat.land
    (Nat.xor (2 ^ 1600 - 1) (Nat.lor (Nat.land (Nat.shiftRight state 64) firstFour)
      (Nat.land (Nat.shiftLeft state 256) lastOne)))
    (Nat.lor (Nat.land (Nat.shiftRight state 128) firstThree)
      (Nat.land (Nat.shiftLeft state 192) lastTwo)))

/-- The constant of each round. -/
def roundConstants : List ℕ :=
  [0x0000000000000001, 0x0000000000008082, 0x800000000000808a, 0x8000000080008000,
   0x000000000000808b, 0x0000000080000001, 0x8000000080008081, 0x8000000000008009,
   0x000000000000008a, 0x0000000000000088, 0x0000000080008009, 0x000000008000000a,
   0x000000008000808b, 0x800000000000008b, 0x8000000000008089, 0x8000000000008003,
   0x8000000000008002, 0x8000000000000080, 0x000000000000800a, 0x800000008000000a,
   0x8000000080008081, 0x8000000000008080, 0x0000000080000001, 0x8000000080008008]

/-- One round of the permutation. -/
def keccakRound (state constant : ℕ) : ℕ :=
  Nat.xor (combineRows (moveLanes
    (Nat.xor state (Nat.mul (parityEffect (columnParities state)) fiveRows)) laneMoves)) constant

/-- The permutation. -/
def keccakPermutation (state : ℕ) : ℕ := roundConstants.foldl keccakRound state

/-- The value of a little-endian byte string. -/
def littleEndianValue : Bytes → ℕ
  | [] => 0
  | byte :: bytes => Nat.add byte.toNat (Nat.mul (littleEndianValue bytes) 256)

/-- Absorb the given number of 136-byte blocks, the last of them padded. -/
def absorbBlocks : ℕ → ℕ → ℕ → ℕ → ℕ
  | 0, _, _, state => state
  | blocks + 1, length, message, state =>
    if length < 136 then
      keccakPermutation (Nat.xor state (Nat.xor message
        (Nat.xor (Nat.shiftLeft 1 (Nat.mul 8 length)) (Nat.shiftLeft 128 1080))))
    else
      absorbBlocks blocks (length - 136) (Nat.shiftRight message 1088)
        (keccakPermutation (Nat.xor state (Nat.mod message (2 ^ 1088))))

/-- The low bytes of a state, first byte highest. -/
def squeezeBytes : ℕ → ℕ → ℕ → ℕ
  | 0, _, value => value
  | bytes + 1, state, value =>
    squeezeBytes bytes (Nat.div state 256) (Nat.add (Nat.mul value 256) (Nat.mod state 256))

/-- Keccak-256. -/
def keccak256 (bytes : Bytes) : Bytes32 :=
  BitVec.ofNat 256 (squeezeBytes 32
    (absorbBlocks (bytes.length / 136 + 1) bytes.length (littleEndianValue bytes) 0) 0)

example : keccak256 [] = 0xc5d2460186f7233c927e7db2dcc703c0e500b653ca82273b7bfad8045d85a470 := by
  decide +kernel

/-- The word of a number at a bit position. -/
def wordAt (position number : ℕ) : ℕ := Nat.mod (Nat.shiftRight number position) 4294967296

/-- The word rotated to the right. -/
def rotateRight (count word : ℕ) : ℕ :=
  Nat.mod (Nat.lor (Nat.shiftRight word count) (Nat.shiftLeft word (Nat.sub 32 count))) 4294967296

/-- Three rotations of a word, combined. -/
def mixRotations (first second third word : ℕ) : ℕ :=
  Nat.xor (rotateRight first word) (Nat.xor (rotateRight second word) (rotateRight third word))

/-- Two rotations and a shift of a word, combined. -/
def mixShift (first second shift word : ℕ) : ℕ :=
  Nat.xor (rotateRight first word) (Nat.xor (rotateRight second word) (Nat.shiftRight word shift))

/-- The schedule moved on by one word. -/
def nextSchedule (schedule : ℕ) : ℕ :=
  Nat.mod (Nat.add (Nat.shiftLeft schedule 32)
    (Nat.mod (Nat.add (Nat.add (mixShift 17 19 10 (wordAt 32 schedule)) (wordAt 192 schedule))
      (Nat.add (mixShift 7 18 3 (wordAt 448 schedule)) (wordAt 480 schedule))) 4294967296)) (2 ^ 512)

/-- The first word of a round's temporaries. -/
def roundSum (state scheduled constant : ℕ) : ℕ :=
  Nat.add (Nat.add (wordAt 0 state) (mixRotations 6 11 25 (wordAt 96 state)))
    (Nat.add (Nat.xor (wordAt 32 state) (Nat.land (wordAt 96 state)
      (Nat.xor (wordAt 64 state) (wordAt 32 state)))) (Nat.add scheduled constant))

/-- The second word of a round's temporaries. -/
def roundMajority (state : ℕ) : ℕ :=
  Nat.add (mixRotations 2 13 22 (wordAt 224 state))
    (Nat.lor (Nat.land (wordAt 224 state) (wordAt 192 state))
      (Nat.land (wordAt 160 state) (Nat.lor (wordAt 224 state) (wordAt 192 state))))

/-- One round: the words move down, and the first and the fifth take the sums. -/
def sha256Round (state scheduled constant : ℕ) : ℕ :=
  Nat.add (Nat.shiftLeft (Nat.mod (Nat.add (roundSum state scheduled constant)
      (roundMajority state)) 4294967296) 224)
    (Nat.add (Nat.shiftLeft (Nat.mod (Nat.shiftRight state 160) (2 ^ 96)) 128)
      (Nat.add (Nat.shiftLeft (Nat.mod (Nat.add (wordAt 128 state)
          (roundSum state scheduled constant)) 4294967296) 96)
        (Nat.mod (Nat.shiftRight state 32) (2 ^ 96))))

/-- The constant of each round of SHA-256. -/
def sha256Constants : List ℕ :=
  [0x428a2f98, 0x71374491, 0xb5c0fbcf, 0xe9b5dba5, 0x3956c25b, 0x59f111f1, 0x923f82a4, 0xab1c5ed5,
   0xd807aa98, 0x12835b01, 0x243185be, 0x550c7dc3, 0x72be5d74, 0x80deb1fe, 0x9bdc06a7, 0xc19bf174,
   0xe49b69c1, 0xefbe4786, 0x0fc19dc6, 0x240ca1cc, 0x2de92c6f, 0x4a7484aa, 0x5cb0a9dc, 0x76f988da,
   0x983e5152, 0xa831c66d, 0xb00327c8, 0xbf597fc7, 0xc6e00bf3, 0xd5a79147, 0x06ca6351, 0x14292967,
   0x27b70a85, 0x2e1b2138, 0x4d2c6dfc, 0x53380d13, 0x650a7354, 0x766a0abb, 0x81c2c92e, 0x92722c85,
   0xa2bfe8a1, 0xa81a664b, 0xc24b8b70, 0xc76c51a3, 0xd192e819, 0xd6990624, 0xf40e3585, 0x106aa070,
   0x19a4c116, 0x1e376c08, 0x2748774c, 0x34b0bcb5, 0x391c0cb3, 0x4ed8aa4a, 0x5b9cca4f, 0x682e6ff3,
   0x748f82ee, 0x78a5636f, 0x84c87814, 0x8cc70208, 0x90befffa, 0xa4506ceb, 0xbef9a3f7, 0xc67178f2]

/-- The rounds over a schedule. -/
def sha256Rounds : List ℕ → ℕ → ℕ → ℕ
  | [], state, _ => state
  | constant :: constants, state, schedule =>
    sha256Rounds constants (sha256Round state (wordAt 480 schedule) constant) (nextSchedule schedule)

/-- The sums of the words of two states. -/
def addWords (first second : ℕ) : ℕ :=
  [224, 192, 160, 128, 96, 64, 32, 0].foldl (fun sum position => Nat.add (Nat.shiftLeft sum 32)
    (Nat.mod (Nat.add (wordAt position first) (wordAt position second)) 4294967296)) 0

/-- The state after the given number of 64-byte blocks. -/
def sha256Blocks : ℕ → Bytes → ℕ → ℕ
  | 0, _, state => state
  | blocks + 1, message, state => sha256Blocks blocks (message.drop 64)
      (addWords state (sha256Rounds sha256Constants state (bigEndianValue (message.take 64))))

/-- A message with its padding. -/
def sha256Padded (bytes : Bytes) : Bytes :=
  bytes ++ 0x80 :: (List.replicate ((119 - bytes.length % 64) % 64) 0 ++ bigEndian 8 (8 * bytes.length))

/-- SHA-256. -/
def sha256 (bytes : Bytes) : Bytes32 :=
  BitVec.ofNat 256 (sha256Blocks ((sha256Padded bytes).length / 64) (sha256Padded bytes)
    0x6a09e667bb67ae853c6ef372a54ff53a510e527f9b05688c1f83d9ab5be0cd19)

example : sha256 (asciiBytes "abc") =
    0xba7816bf8f01cfea414140de5dae2223b00361a396177a9cb410ff61f20015ad := by
  decide +kernel

/-- The `mds` matrix of `fp_kimchi`, by rows. -/
def mixingMatrix : List (ℕ × ℕ × ℕ) :=
  [(0x1a9bd250757e29ef4959b9bef59b4e60e20a56307d6491e7b7ea1fac679c7903,
    0x384aa09faf3a48737e2d64f6a030aa242e6d5d455ae4a13696b48a7320c506cd,
    0x3d2b7b0209bc3080064d5ce4a7a03653f8346506bfa6d076061217be9e6cfed5),
   (0x09ee57c70bc351220b107983afcfabbea79868a4a8a5913e24b7aaf3b4bf3a42,
    0x20989996bc29a96d17684d3ad4c859813115267f35225d7e1e9a5b5436a2458f,
    0x14e39adb2e171ae232116419ee7f26d9191edde8a5632298347cdb74c3b2e69d),
   (0x174544357b687f65a9590c1df621818b5452d5d441597a94357f112316ef67cb,
    0x3ca9263dc1a19d17cfbf15b0166bb25f95dffc53212db207fcee35f02c2c4137,
    0x3cf1fbef75d4ab63b7a812f80b7b0373b2dc21d269ba7c4c4d6581d50aae114c)]

/-- The `round_constants` of `fp_kimchi`. -/
def poseidonConstants : List (ℕ × ℕ × ℕ) :=
  [(0x2ec559cd1a1f2f6889fc8ae5f07757f202b364429677c8ff6603fd6d93659b47,
    0x2553b08c788551bfe064d91c17eb1edb8662283229757711b2b30895f0aa3bad,
    0x25a706fb0f35b260b6f28d61e082d36a8f161be1f4d9416371a7b65f2bfafe4e),
   (0x37c0281fda664cc2448d0e7dd77aaa04752250817a945abeea8cfaaf3ee39ba0,
    0x140488321291998b8582eaceeb3fa9ca3980eb64a453573c5aaa2910405936b6,
    0x3a73fe35b1bdd66b809aad5eab47b5c83b0146fd7fc632dfb49cd91ae1169378),
   (0x21b7c2b35fd7710b06245711f26c0635d3e21de4db10dd3a7369f59f468d7be6,
    0x1803a068d25fef2ef652c8a4847aa18a29d1885e7bf77fd6a34d66536d09cad7,
    0x291de61c5e6268213772cf7e03c80c2e833eb77c58c46548d158a70fbbd9724b),
   (0x230043a0dc2dfab63607cbe1b9c482fdd937fdefecc6905aa5012e89babead13,
    0x218af77a05c502d3fa3144efcf47a0f2a0292498c10c6e2368565674e78764f4,
    0x223e2d94c177d27e071d55729d13a9b216955c7102cc9a95ea40058efb506117),
   (0x2a18257c15ad9b6fe8b7c5ad2129394e902c3c3802e738f24ce2f585ae5f6a38,
    0x0a6f7ba75f216403d2e4940469d199474a65aa5ef814e36400bddef06158dcf8,
    0x169be41c6227956efef5b4cdde65d00d5e04fe766178bdc731615c6e5b93e31e),
   (0x2e28f50a9a55d2e91774083072734544417e290a1cfebc01801b94d0728fe663,
    0x0fdedf8da8654a22831040cfc74432464b173ee68628fd90498480b9902f2819,
    0x046a3ed9863d2d739dd8bc9e90a746fda1197162d0a0bec3db1f2f6042cf04e2),
   (0x219e08b460c305b428670bacab86ac1e9458075778d35c3619ae7ba1f9b2ed76,
    0x38bb36a12ebcec4d4e8728eb43e3f12a6e33b1ffa1463379018d4e12424e62ca,
    0x1e9aa3fe25d116ccfbd6a8fccdae0aa9bc164a03ab7e951704ee9a715fbedee6),
   (0x030f33ed70da4c2bfb844ff1a7558b817d1ec300da86a1694f2db45047d5f18b,
    0x0282b04137350495ab417cf2c47389bf681c39f6c22d9e370b7af75cbcbe4bb1,
    0x09b1528dea2eb5bd96905b88ff05fdf3e0f220fe1d93d1b54953ac98fec825f0),
   (0x30083dbbb5eab39311c7a8bfd5e55567fa864b3468b5f9200e529cda03d9ef71,
    0x017eace73cf67c6112239cbf51dec0e714ee4e5a91dbc9209dc17bbea5bcd094,
    0x37af1de8f5475ba165b90f8d568683d54e215df97e9287943370cf4118428097),
   (0x16ff7592836a45340ec6f2b0f122736d03f0bcb84012f922a4baa73ea0e66f51,
    0x1a5985d4b359d03de60b2edabb1853f476915febc0e40f83a2d1d0084efc3fd9,
    0x255a9d4beb9b5ea18ab9782b1abb267fc5b773b98ab655fd4d469698e1e1f975),
   (0x34a8d9f45200a9ac28021712be81e905967bac580a0b9ee57bc4231f5ecb936a,
    0x0979556cb3edcbe4f33edd2094f1443b4b4ec6c457b0425b8463e788b9a2dcda,
    0x2a4d028c09ad39c30666b78b45cfadd5279f6239379c689a727f626679272654),
   (0x0c31b68f6850b3bd71fe4e89984e2c87415523fb54f24ec8ae71430370154b33,
    0x1a27ca0b953d3dba6b8e01cf07d76c611a211d139f2dff5ac023ed2454f2ed90,
    0x109ae97c25d60242b86d7169196d2212f268b952dfd95a3937916b9905303180),
   (0x3698c932f2a16f7bb9abac089ec2de79c9965881708878683caf53caa83ad9c4,
    0x3c7e25e0ac8fba3dc1360f8a9a9fa0be0e031c8c76a93497b7cac7ed32ade6c0,
    0x2fc5023c5e4aed5aa7dfca0f5492f1b6efab3099360ec960237512f48c858a79),
   (0x2c124735f3f924546fb4fdfa2a018e03f53063d3a2e87fd285ba8d647eda6765,
    0x12c875c9b79591acf9033f8b6c1e357126c44b23f3486fbee0d98340a3382251,
    0x3cda935e895857d39a7db8476aeda5a5131cb165a353073fd3e473fd8855528d),
   (0x218eb756fa5f1df9f1eb922ef80b0852588779a7368e3d010def1512815d8759,
    0x23bcf1032957015ef171fbb4329bca0c57d59885522f25f4b082a3cf301cfbc6,
    0x17474c3b6a9bc1057df64b9e4d62badbc7f3867b3dd757c71c1f656205d7bceb),
   (0x019826c0ee22972deb41745d3bd412c2ae3d4c18535f4b60c9e870edffa3d550,
    0x30bcb17dfd622c46f3275f698319b68d8816bed0368ded435ed61992bc43efa9,
    0x3bd816c214c66410229cfbd1f4a3a42e6a0f82f3c0d49b09bc7b4c042ff2c94b),
   (0x08943ec01d9fb9f43c840757738979b146c3b6d1982280e92a52e8d045633ea1,
    0x2670bf8c01822e31c70976269d89ed58bc79ad2f9d1e3145df890bf898b57e47,
    0x0dd53b41599ae78dbd3e689b65ebcca493effa94ed765eeec75a0d3bb20407f9),
   (0x068177d293585e0b8c8e76a8a565c8689a1d88e6a9afa79220bb0a2253f203c3,
    0x35216f471043866edc324ad8d8cf0cc792fe7a10bf874b1eeac67b451d6b2cf5,
    0x1fd6efb2536bfe11ec3736e7f7448c01eb2a5a9041bbf84631cc83ee0464f6af),
   (0x2c982c7352102289fc1b48dafcd9e3cc364d5a4324575e4721daf0af10033c67,
    0x352f7e8c7662d86db9c722d4d07778858771b832af5bb5dc3b13cf94851c1b45,
    0x18e3c0c1caa5e3ed66ee1ab6f55a5c8063d8c9b034ae47db43435147149e37d5),
   (0x3124b12deb37dcbb3d96c1a08d507523e30e03e0919559bf2daaab238422eade,
    0x143bf0def31437eb21095200d2d406e6e5727833683d9740b9bfc1713215dc9a,
    0x1ebee92143f32b4f9d9a90ad62b8483c977480767b53c71f6bde934a8ef38f17),
   (0x0ff6c794ad1afaa494088d5f8ee6c47bf9e83013478628cf9f41f2e81383ebeb,
    0x3d0a10ac3ee707c62e8bdf2cdb49ac2cf4096cf41a7f214fdd1f8f9a24804f17,
    0x1d61014cd3ef0d87d037c56bdfa370a73352b95d472ead1937bed06a31801c91),
   (0x123e185b2ec7f072507ac1e4e743589bb25c8fdb468e329e7de169875f90c525,
    0x30b780c0c1cb0609623732824c75017da9799bdc7e08b527bae7f409ebdbecf2,
    0x1dfb3801b7ae4e209f68195612965c6e37a2ed5cf1eeee3d46edf655d6f5afef),
   (0x2fdee42805b2774064e963c741552556019a9611928dda728b78311e1f049528,
    0x31b2b65c431212ed36fdda5358d90cd9cb51c9f493bff71cdc75654547e4a22b,
    0x1e3ca033d8413b688db7a543e62ac2e69644c0614801379cfe62fa220319e0ef),
   (0x0c8ef1168425028c52a32d93f9313153e52e9cf15e5ec2b4ca09d01730dad432,
    0x378c73373a36a5ed94a34f75e5de7a7a6187ea301380ecfb6f1a22cf8552638e,
    0x3218aeec20048a564015e8f221657fbe489ba404d7f5f15b829c7a75a85c2f44),
   (0x3312ef7cbbad31430f20f30931b070379c77119c1825c6560cd2c82cf767794e,
    0x356449a71383674c607fa31ded8c0c0d2d20fb45c36698d258cecd982dba478c,
    0x0cc88d1c91481d5321174e55b49b2485682c87fac2adb332167a20bcb57db359),
   (0x1defccbd33740803ad284bc48ab959f349b94e18d773c6c0c58a4b9390cc300f,
    0x2d263cc2e9af126d768d9e1d2bf2cbf32063be831cb1548ffd716bc3ee7034fe,
    0x111e314db6fb1a28e241028ce3d347c52558a33b6b11285a97fffa1b479e969d),
   (0x027409401e92001d434cba2868e9e371703199c2372d23ef329e537b513f453e,
    0x24a852bdf9cb2a8fedd5e85a59867d4916b8a57bdd5f84e1047d410770ffffa0,
    0x205d1b0ee359f621845ac64ff7e383a3eb81e03d2a2966557746d21b47329d6e),
   (0x25c327e2cc93ec6f0f23b5e41c931bfbbe4c12da7d55a2b1c91c79db982df903,
    0x39df3e22d22b09b4265da50ef175909ce79e8f0b9599dff01cf80e70884982b9,
    0x09b08d58853d8ac908c5b14e5eb8611b45f40faaa59cb8dff98fb30efcdfaa01),
   (0x1ece62374d79e717db4a68f9cddaaf52f8884f397375c0f3c5c1dbaa9c57a0a6,
    0x3bd089b727a0ee08e263fa5e35b618db87d7bcce03441475e3fd49639b9fa1c1,
    0x3fedea75f37ad9cfc94c95141bfb4719ee9b32b874b93dcfc0cc12f51a7b2aff),
   (0x36dfa18a9ba1b194228494a8acaf0668cb43aca9d4e0a251b20ec3424d0e65cd,
    0x119e98db3f49cd7fcb3b0632567d9ccaa5498b0d411a1437f57c658f41931d0c,
    0x1100b21c306475d816b3efcd75c3ae135c54ad3cc56ca22abd9b7f45e6d02c19),
   (0x15791f9bbea213937208c82794eb667f157f003c65b64aa9800f4bbee4ea5119,
    0x1adbeb5e9c4d515ecfd250ebee56a2a816eb3e3dc8d5d440c1ab4285b350be64,
    0x1fbf4738844a9a249aec253e8e4260e4ab09e26bea29ab0020bf0e813ceecbc3),
   (0x3418a929556ec51a086459bb9e63a821d407388cce83949b9af3e3b0434eaf0e,
    0x09406b5c3af0290f997405d0c51be69544afb240d48eeab1736cda0432e8ff9e,
    0x23ece5d70b38ccc9d43cd923e5e3e2f62d1d873c9141ef01f89b6de1336f5bc7),
   (0x1852d574e46d370a0b1e64f6c41eeb8d40cf96c524a62965661f2ef87e67234d,
    0x0a657027cce8d4f238ea896dde273b7537b508674a366c66b3789d9828b0ce90,
    0x3482f98a46ec358108fbbb68fd94f8f2baa73c723baf21922a850e45511f5a2d),
   (0x3f62f164f8c905b335a6cbf76131d2430237e17ad6abc76d2a6329c1ec5463ee,
    0x07e397f503f9c1cea028465b2950ea444b15c5eab567d5a69ea2925685694df0,
    0x0405f1fc711872373d6eb50a09fbfb05b2703ae0a0b4edb86aedb216db17a876),
   (0x0be0848eb3e09c7027110ad842c502441c97afa14a844406fcfec754a25658c1,
    0x26b78788fd98ac020bac92d0e7792bb5ffed06b697d847f61d984f905d9ba870,
    0x38fd5318d39055c82fef9bdd33315a541c0ec4363e6cc0687005871355dfa573),
   (0x380bd03b840c48c8ba3830e7cace72f91a5002218c617294e8c8bc687d5216de,
    0x2c6e57ddc1d7c81a0299ed49c3d74759416bc8426f30e2af5622895c531b4e1c,
    0x11d3a81b262fc76ef506ee6d88e5991d0de8cb9dd162d97c58b175e3bc4584f3),
   (0x09b6b283ebaf45fbb1e448969ace9be62adf67ddf58614925741deb6a1ba7def,
    0x15d5095164c885763fa83cdf776d436382821a17bc5563a5b6f6dfcdac504ade,
    0x3427fdbfca3cea23063eb138c5055c6cad9c4252b23d12c12293308eff7d9124),
   (0x272f12e731077b74317ef2543c33b86194db1da5f6a7e1eee0656672c81685fe,
    0x05323f85deb8c07c193c37a73d76f6114967913a2bdce11995f183e769f42967,
    0x3d5ce415ecae4ba42b417ea3a501b44694f46efddff2fcca952b097f3852d3d8),
   (0x0e8ec18c7b52c514d42047f1f0b2a90cb8c0c7391cf9479cd7fd5bfe1d3db8f2,
    0x01591c865ea7065d54304519f8bb268bddbeaf3afae54edcd01a833ed0a9ef1a,
    0x3eddbeeee5eca5deee4bf1789c435e1241e0d71186d8f0f62d74729dfc3119fb),
   (0x23691c7009b9283b268766e8d491716d3c1993e6ecf458def8f762af3e355707,
    0x26cdab2c837ebeac5bea4be1d6f0488034907374d81a61a34f1c4db397d4c09b,
    0x2d2206730664d58be0676dad1fee0e990c264a7410a2cdb6b55653c1df72ef56),
   (0x2bb74bb185372334a4ef5f6d18e2ece54086e62b04985dd794b7117b0be9217f,
    0x366250fe928c45d8d5aa35f0a142754907ff3c598410199b589b28cd851b2204,
    0x1868f8118482c6b4a5a61a81c8aaca128953179c20f73a44022d9976bdc34af1),
   (0x0b7901c670e1d75d726eb88d000950b3c963f0f7a6ca24994bdc07ae2f78b4d3,
    0x032c4bd8ab70e1f25af77af57dd340c8e6c8a101dfc5e8dd03314566db90b870,
    0x1ce36db31fe6ea3cd9308db9aa43a8af5c41a8f0a6509bfe00f0e7b486c0ab8a),
   (0x26596ea9e1915e53da3479e9d13c3c920505e2449e325810ff6ca855fe4b7c6e,
    0x30f296a269868a7fca8f5b1e269c0116304df31729559a270e713509d3a6d5dc,
    0x02588961eff7897d87eb6ac72350ef9f52640647cbd23136919a994dfd1979d5),
   (0x16a49e69721e80690d41e06229e9bc2dbaf9a2abf4b89388db2485595409d62b,
    0x3d7aca02c051fcad8073cfd67210cd423a31888afc4a444d9d3adf3d6c5da7bf,
    0x299bd48a740b7790075268312ab8072c72421de5a6437fa5e25431ef951847b4),
   (0x11a69b867d9ea22ec1b2f28e96617129e36eefaea9e8126bdc6a42b99072902b,
    0x25bc1af391f3c1f2284a95da92b5883d1b3a40794b2358b2e7a70fca22da64ce,
    0x361ab3843f4d8ddadede39d82bb1a8109f89b6d9aa117b8f365de43895de0baa),
   (0x38ef3ab5b61c117a3465a017a9c8ba4c227659b41fdf145206d5c960f49dd45b,
    0x3992f83f26143dbdbd335604a1a14daf238ae43c249783f694feaf560aaae20f,
    0x350287977eb71c81b10ecd039aad99cfa9ed84a04301cb30869e1dc7fa1dc638),
   (0x3afb5bc126020586dcccba32dd054cd9a3f3b834ca9678d6802c48b1da97d6ed,
    0x172b7c2d8e7e4b06d183a2575b790749d0970c54966407fa8f59072c729de671,
    0x2eb53fe3a278688a70494569e54a0f0d269935aec6c897bef4d368c1f67d57e4),
   (0x0375ae56b8d9310d553ed77d406dedc3f0393e5a321b71caee6a5bb7078b5035,
    0x1d49a0d53bc2993cbf1fb5d1da9bb76fe46a7031d5e5d43fadbf54bc17c1ef38,
    0x132d17b87cab6d707ddfa1f01df1724ad37957e989c44f1ff71426367f953160),
   (0x062da5280948d8c6c4acc7e6a1aa421f0f9ec179a44146750060be4be6755f85,
    0x0a4b4d5cde54a974ea4e57ee4132d2ab2510c300f21930d6bbbf211d1add80f9,
    0x3356f1fbeac493ccab752b70bbed821ce49965c19284d7aacd78fbf3ff864e91),
   (0x042721e8a9cc32557851feb0e0190c5dfbf4cb1b8f47d37e7e653ec6ff8a4059,
    0x053d9b2633fff31ca4fc5724ce6b4422318128cdf01897d321e86f47cdf748b1,
    0x267d96caeafde5dbd3db1f0668b09ccd532a22f0205494716a786219fb4c801c),
   (0x39316997737610193c3f9ffcfd4e23d38aac12cd7b95b8d256d774101650a6ca,
    0x191e377462986563fdabf9b23529f7c84c6b200b9101b3a5096bca5f377981fb,
    0x20f89af9722f79c860d2059a0ec209cf3a7925ad0798cab655eca62fe73ff3d9),
   (0x1ca568aeddb2ef391a7c78ecf104d32d785b9ca145d97e35879df3534a7d1e0b,
    0x25de9ba0a37472c3b4c0b9c3bc25cbbf78d91881b6f94ee70e4abf090211251c,
    0x3393debd38d311881c7583bee07e605ef0e55c62f0508ccc2d26518cd568e1ef),
   (0x038df2fd18a8d7563806aa9d994a611f642d5c397388d1dd3e78bc7a4515c5b1,
    0x05c6503ff1ee548f2435ad9148d7fb94c9222b0908f445537a6667047f6d501c,
    0x104c88d6d0682d82d3d664826dc9565db101a220aa8f90572eb798468a82a2ab),
   (0x2caad6108c09ee6aee7851b4a2d2d3b7c3ca3c56a80003c8471f90bfa4ac628b,
    0x0a57dbd4c327826c8a97bc7285f94bcddb966177346f1792c4bd7088aa0353f3,
    0x3c15552f9124318b8433d01bb53ba04ba1cc9eb91d83b918e32fea39fbe908fa),
   (0x0e10c10cbbe1717a9441c6299c4fc087c222208bd4fa8f3be66d2075f623b513,
    0x1e8b254cbff2c92a83dff1728c81dd22a9570f590e497cb2d640042cb879a930,
    0x1812dbcd70c440610057bbfdd0cc4d31d1faf5786419b53841c4adc43f2b2352)]

/-- `sbox`: the seventh power. -/
def sbox (value : ℕ) : ℕ := Nat.mod (Nat.pow value 7) fieldOrder

/-- One row of `apply_mds_matrix`, with the round constant of its element. -/
def mixRow (row state : ℕ × ℕ × ℕ) (constant : ℕ) : ℕ :=
  Nat.mod (Nat.add (Nat.add (Nat.mul row.1 state.1) (Nat.mul row.2.1 state.2.1))
    (Nat.add (Nat.mul row.2.2 state.2.2) constant)) fieldOrder

/-- `full_round`. -/
def fullRound (state constants : ℕ × ℕ × ℕ) : ℕ × ℕ × ℕ :=
  let powers := (sbox state.1, sbox state.2.1, sbox state.2.2)
  (mixRow (mixingMatrix.getD 0 0) powers constants.1,
    mixRow (mixingMatrix.getD 1 0) powers constants.2.1,
    mixRow (mixingMatrix.getD 2 0) powers constants.2.2)

/-- `poseidon_block_cipher` with the `fp_kimchi` parameters: 55 full rounds and no
initial constants. -/
def poseidonBlockCipher (state : SpongeState) : SpongeState :=
  let final := poseidonConstants.foldl fullRound
    (state.first.val, state.second.val, state.capacity.val)
  ⟨final.1, final.2.1, final.2.2⟩

/-- Both primitives. -/
def referenceHashes : Hashes := ⟨keccak256, poseidonBlockCipher⟩

end EthereumSettlement.ReferenceHashes
