import TfliteTts.Baker.Basic
import TfliteTts.Baker.Text
import TfliteTts.Baker.Theorems.Phoneme
import TfliteTts.Baker.Theorems.Language
import TfliteTts.Baker.Theorems.Erhua
import TfliteTts.Lib.LittleEndian
import TfliteTts.Lib.Machine
import TfliteTts.Native.Basic
import TfliteTts.Native.Tflite
import TfliteTts.Native.AudioFile
import TfliteTts.Native.TTSBackend
import TfliteTts.Native.VoxCommon
import TfliteTts.Native.Theorems.Export
import TfliteTts.Native.TextToSpeech
import TfliteTts.Native.Theorems.Loaded
import TfliteTts.Native.Theorems.Lifecycle
import TfliteTts.Native.Echo
import TfliteTts.Native.Theorems.Report
import TfliteTts.Native.Theorems.Tensors
import TfliteTts.Native.Theorems.Vocoder
import TfliteTts.Native.Theorems.Acoustic
import TfliteTts.Native.Theorems.History
import TfliteTts.Platform.Android
import TfliteTts.Platform.IOS
import TfliteTts.Platform.Theorems.FrontEnds
import TfliteTts.Lib.Pipeline
import TfliteTts.Plugin.TTSPlugin
import TfliteTts.Plugin.Theorems.OwnAudio
import TfliteTts.Baker.Theorems.Seam
import TfliteTts.Baker.Theorems.Ignored
import TfliteTts.Baker.Theorems.Separators
import TfliteTts.Lib.PrefixFree
import TfliteTts.Baker.Theorems.Decoding
import TfliteTts.Native.Theorems.Wave
import TfliteTts.Lib.At
import TfliteTts.Lib.Binary32
import TfliteTts.Lib.Iff
import TfliteTts.Lib.Loop
import TfliteTts.Native.AudioFile.Load
import TfliteTts.Native.AudioFile.Save
import TfliteTts.Native.Theorems.Accepted
import TfliteTts.Native.Theorems.AiffRoundTrip
import TfliteTts.Native.Theorems.Divergence
import TfliteTts.Native.Theorems.Quantization
import TfliteTts.Lib.Grid
import TfliteTts.Native.AudioFile.Calls
import TfliteTts.Native.Theorems.Calls
import TfliteTts.Native.Theorems.Generations
import TfliteTts.Native.Theorems.Reload
import TfliteTts.Plugin.App
import TfliteTts.Plugin.Theorems.App
import TfliteTts.Baker.Theorems.Image
import TfliteTts.Native.Theorems.Chunks
import TfliteTts.Native.Theorems.WaveChunks
import TfliteTts.Native.Theorems.AiffChunks
