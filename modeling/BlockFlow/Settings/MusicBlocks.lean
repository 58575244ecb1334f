import BlockFlow.Settings.Tables

/-! # The Music Blocks tables

  The lookup tables for the blocks of a Music Blocks project.
-/

namespace BlockFlow.LookupTables

/-- Blocks that wrap a flow. -/
def musicClamps : List String :=
  ["newnote", "osctime", "rhythmicdot2", "tie", "multiplybeatfactor", "newswing2", "drift",
   "accidental", "setscalartransposition", "settransposition", "invert1", "definemode",
   "interval", "semitoneinterval", "settimbre", "vibrato", "chorus", "phaser", "tremolo", "dis",
   "harmonic2", "newstaccato", "newslur", "neighbor2", "crescendo", "decrescendo", "articulation",
   "setdrum", "mapdrum"]

/-- Blocks that assign to an attribute. -/
def musicSetters : Entries String :=
  [("pickup", "PICKUP"), ("movable", "MOVEABLE"), ("setnotevolume", "MASTERVOLUME"),
   ("setpanning", "PANNING")]

/-- Arguments that read an attribute. -/
def musicGetters : Entries String :=
  [("mynotevalue", "NOTEVALUE"), ("elapsednotes", "WHOLENOTESPLAYED"), ("beatvalue", "BEATCOUNT"),
   ("measurevalue", "MEASURECOUNT"), ("bpmfactor", "BPM"), ("beatfactor", "BEATFACTOR"),
   ("currentmeter", "CURRENTMETER"), ("deltapitch2", "SCALARCHANGEINPITCH"),
   ("deltapitch", "CHANGEINPITCH"), ("consonantstepsizeup", "SCALARSTEPUP"),
   ("consonantstepsizedown", "SCALARSTEPDOWN"), ("key", "CURRENTKEY"),
   ("currentmode", "CURRENTMODE"), ("modelength", "MODELENGTH"),
   ("notevolumefactor", "MASTERVOLUME")]

/-- Blocks that call a method. -/
def musicMethods : Entries String :=
  [("newnote", "playNote"), ("osctime", "playNoteMillis"), ("rest2", "playRest"),
   ("rhythmicdot2", "dot"), ("tie", "tie"), ("multiplybeatfactor", "multiplyNoteValue"),
   ("newswing2", "swing"), ("meter", "setMeter"), ("setbpm3", "setBPM"),
   ("setmasterbpm2", "setMasterBPM"), ("everybeatdo", "onEveryNoteDo"),
   ("everybeatdonew", "onEveryBeatDo"), ("onbeatdo", "onStrongBeatDo"),
   ("offbeatdo", "onWeakBeatDo"), ("drift", "setNoClock"), ("elapsednotes2", "getNotesPlayed"),
   ("pitch", "playPitch"), ("steppitch", "stepPitch"), ("nthmodalpitch", "playNthModalPitch"),
   ("pitchnumber", "playPitchNumber"), ("hertz", "playHertz"), ("accidental", "setAccidental"),
   ("setscalartransposition", "setScalarTranspose"), ("settransposition", "setSemitoneTranspose"),
   ("register", "setRegister"), ("invert1", "invert"),
   ("setpitchnumberoffset", "setPitchNumberOffset"), ("number2pitch", "numToPitch"),
   ("number2octave", "numToOctave"), ("setkey2", "setKey"), ("interval", "setScalarInterval"),
   ("semitoneinterval", "setSemitoneInterval"), ("settemperament", "setTemperament"),
   ("settimbre", "setInstrument"), ("vibrato", "doVibrato"), ("chorus", "doChorus"),
   ("phaser", "doPhaser"), ("tremolo", "doTremolo"), ("dis", "doDistortion"),
   ("harmonic2", "doHarmonic"), ("newstaccato", "setStaccato"), ("newslur", "setSlur"),
   ("neighbor2", "doNeighbor"), ("crescendo", "doCrescendo"), ("decrescendo", "doDecrescendo"),
   ("articulation", "setRelativeVolume"), ("setsynthvolume", "setSynthVolume"),
   ("synthvolumefactor", "getSynthVolume"), ("playdrum", "playDrum"), ("setdrum", "setDrum"),
   ("mapdrum", "mapPitchToDrum"), ("playnoise", "playNoise"), ("random", "MathUtility.doRandom"),
   ("oneOf", "MathUtility.doOneOf"), ("distance", "MathUtility.doCalculateDistance"),
   ("forward", "doForward"), ("back", "doForward"), ("right", "doRight"), ("left", "doRight"),
   ("setxy", "doSetXY"), ("setheading", "doSetHeading"), ("arc", "doArc"), ("bezier", "doBezier"),
   ("controlpoint1", "setControlPoint1"), ("controlpoint2", "setControlPoint2"),
   ("clear", "doClear"), ("scrollxy", "doScrollXY"), ("setcolor", "doSetColor"),
   ("setgrey", "doSetChroma"), ("setshade", "doSetValue"), ("sethue", "doSetHue"),
   ("settranslucency", "doSetPenAlpha"), ("setpensize", "doSetPensize"), ("penup", "doPenUp"),
   ("pendown", "doPenDown"), ("setfont", "doSetFont")]

/-- The tables for Music Blocks. -/
def musicBlocks : LookupTables where
  setters := musicSetters
  getters := musicGetters
  methods := musicMethods
  clamps := musicClamps

end BlockFlow.LookupTables
